/-
  Which failed blocks the main loop retries, over all its runs.

  * `trace`: the events of the calls that were answered; `World.Traced`: the tables are what these
    events lead to;
  * `timely`: an environment whose clock does not go back, and in which the outcome of a retry is
    recorded;
  * `World.Since`: what the indexing of blocks keeps, whatever it is of;
  * `mainLoop_retries`: in every run, retries are spaced and bounded, and no block has to wait for
    ever.
-/
import RollappExplorer.RetryFairness
import RollappExplorer.Scenario

namespace RollappExplorer

open Go Effect

variable {R : Type}

/-! ## The events of a log -/

/-- The events that have taken effect, and the statements of the last transaction. -/
structure Trace where
  events : List FailedBlockEvent
  tx : List Stmt

/-- The trace after an answered call. -/
def Trace.after : (c : Call) → c.Ans → Trace → Trace
  | .selectOneFailedBlock _ before, .ok _, t => { t with
      events := t.events ++ [.getOneFailedBlock (before + retryIndexingFailedBlockGapSeconds)] }
  | .exec stmt, .ok _, t => { t with events := t.events ++ [.statement stmt] }
  | .begin, .ok _, t => { t with tx := [] }
  | .txExec stmt, .ok _, t => { t with tx := t.tx ++ [stmt] }
  | .commit, .ok _, t => { t with events := t.events ++ t.tx.map .statement }
  | _, _, t => t

def trace (log : List Answered) : Trace := log.foldr (fun e t => t.after e.1 e.2) ⟨[], []⟩

/-- The retry of an answered call: when, and of which block; zero if there is none to retry. -/
def retryOf : (c : Call) → c.Ans → Option (ℤ × ℤ)
  | .selectOneFailedBlock _ before, .ok height =>
    some (before + retryIndexingFailedBlockGapSeconds, height)
  | _, _ => none

/-- The retries of a log. -/
def retried (log : List Answered) : List (ℤ × ℤ) := log.reverse.filterMap fun e => retryOf e.1 e.2

theorem retried_cons {c : Call} {a : c.Ans} {log : List Answered} :
    retried (⟨c, a⟩ :: log) = retried log ++ (retryOf c a).toList := by
  rw [retried, List.reverse_cons, List.filterMap_append]
  cases h : retryOf c a with
  | none => simp [retried, h]
  | some retry => simp [retried, h]

/-- The tables are what the events lead to, and those of an open transaction are what its statements
    make of them; the events read the clock in the order of its answers. -/
structure World.Traced (tables : RecordTables R) (db₀ : Tables R) (w : World R) : Prop where
  db : runAll tables db₀ (trace w.history.log).events = w.db
  work : ∀ tx ∈ w.tx,
    runAll tables w.db ((trace w.history.log).tx.map .statement) = tx.work
  untimed : ((trace w.history.log).tx.map FailedBlockEvent.statement).filterMap
    FailedBlockEvent.time = []
  clocked : Clocked (trace w.history.log).events
  read : ∀ t : ℤ, t ∈ (trace w.history.log).events.filterMap FailedBlockEvent.time →
    ⟨.now, t⟩ ∈ w.history.log
  retries : retried w.history.log = retriesFrom tables db₀ (trace w.history.log).events

/-! ## Timely environments -/

/-- The clock does not go back, and a statement that settles the block that is retried does not
    fail, if it can be carried out at all. -/
def Timely : (c : Call) → c.Ans → World R → Prop
  | .now, now, w => ∀ t : ℤ, ⟨.now, t⟩ ∈ w.history.log → t ≤ now
  | .exec stmt, a, w => (∃ h ∈ w.history.retrying, stmt.Settles h) → stmt.Executable → a = .ok ()
  | _, _, _ => True

def timely (d : Indexer R) (rpc : Answers) : Handler sig (World R) where
  allows c a w := allows d rpc c a w ∧ Timely c a w
  effect := World.after d.tables

/-- The main loop, in a timely environment. -/
def timelyLoop (d : Indexer R) (rpc : Answers) : Service sig (World R) LoopResult :=
  { mainLoop d rpc with handler := timely d rpc }

/-! ## Calls -/

/-- Where a run has begun: its tables, the events so far, and the block that is retried. -/
structure Origin (R : Type) where
  db : Tables R
  events : List FailedBlockEvent
  retrying : Option ℤ

/-- Since the origin there were only statements, and a transaction is open now or not. -/
structure World.Since (d : Indexer R) (o : Origin R) (isOpen : Bool) (w : World R) : Prop where
  traced : w.Traced d.tables o.db
  events : ∃ stmts : List Stmt,
    (trace w.history.log).events = o.events ++ stmts.map .statement
  retrying : w.history.retrying = o.retrying
  tx : w.tx.isSome = isOpen

/-- The clock was read last. -/
structure World.Reads (now : ℤ) (w : World R) : Prop where
  mem : ⟨.now, now⟩ ∈ w.history.log
  le : ∀ t : ℤ, ⟨.now, t⟩ ∈ w.history.log → t ≤ now

/-- The call has no effect on the tables, and selects no block. -/
def Call.Harmless : Call → Prop
  | .refreshActiveJsonRpcUrl | .selectOneFailedBlock _ _ | .exec _ | .begin | .txExec _ | .commit
  | .rollback => False
  | _ => True

section
variable {d : Indexer R} {rpc : Answers} {o : Origin R} {isOpen : Bool} {w : World R}

/-- An answer without effect on the tables. -/
theorem World.Traced.calm {c : Call} {a : c.Ans} {db₀ : Tables R} (h : w.Traced d.tables db₀)
    (hdb : (w.change d.tables c a).db = w.db)
    (htx : ∀ tx ∈ (w.change d.tables c a).tx, tx ∈ w.tx)
    (htrace : ∀ t : Trace, t.after c a = t) (hretry : retryOf c a = none) :
    (w.after d.tables c a).Traced d.tables db₀ := by
  have hlog : trace (⟨c, a⟩ :: w.history.log) = trace w.history.log := htrace _
  refine ⟨?_, ?_, ?_, ?_, ?_, ?_⟩
  · show runAll d.tables db₀ (trace (⟨c, a⟩ :: w.history.log)).events = (w.change d.tables c a).db
    rw [hlog, hdb, h.db]
  · intro tx hm
    show runAll d.tables (w.change d.tables c a).db
      ((trace (⟨c, a⟩ :: w.history.log)).tx.map .statement) = tx.work
    rw [hlog, hdb]
    exact h.work tx (htx tx hm)
  · show ((trace (⟨c, a⟩ :: w.history.log)).tx.map _).filterMap _ = _
    rw [hlog, h.untimed]
  · show Clocked (trace (⟨c, a⟩ :: w.history.log)).events
    rw [hlog]
    exact h.clocked
  · show ∀ t : ℤ, t ∈ (trace (⟨c, a⟩ :: w.history.log)).events.filterMap _ → _
    rw [hlog]
    exact fun t ht => List.mem_cons_of_mem _ (h.read t ht)
  · show retried (⟨c, a⟩ :: w.history.log) =
      retriesFrom d.tables db₀ (trace (⟨c, a⟩ :: w.history.log)).events
    rw [hlog, retried_cons, hretry, ← h.retries]
    exact List.append_nil _

theorem World.Since.calm {c : Call} {a : c.Ans} (h : w.Since d o isOpen)
    (hdb : (w.change d.tables c a).db = w.db) (htx : (w.change d.tables c a).tx = w.tx)
    (hretrying : (w.change d.tables c a).history.retrying = w.history.retrying)
    (htrace : ∀ t : Trace, t.after c a = t) (hretry : retryOf c a = none) :
    (w.after d.tables c a).Since d o isOpen := by
  have hlog : trace (⟨c, a⟩ :: w.history.log) = trace w.history.log := htrace _
  refine ⟨h.traced.calm hdb (fun _ hm => htx ▸ hm) htrace hretry, ?_, hretrying.trans h.retrying,
    ?_⟩
  · show ∃ stmts : List Stmt, (trace (⟨c, a⟩ :: w.history.log)).events = _
    rw [hlog]
    exact h.events
  · show (w.change d.tables c a).tx.isSome = isOpen
    rw [htx, h.tx]

theorem World.Since.harmless {c : Call} (hc : c.Harmless) (a : c.Ans) (h : w.Since d o isOpen) :
    (w.after d.tables c a).Since d o isOpen := by
  cases c with
  | refreshActiveJsonRpcUrl | selectOneFailedBlock | exec | begin | txExec | commit | rollback =>
    exact hc.elim
  | now | elapsed | mapOrder | forceResetActiveJsonRpcUrl | isCreatedPartitions
  | markCreatedPartitions => exact h.calm rfl rfl rfl (fun _ => rfl) rfl
  | beGetChainInfo | beGetLatestBlockNumber | beTransactionsInBlockRange | preparePartitions
  | selectLatestIndexedBlock | selectFailedBlocksInRange =>
    cases a with
    | error err => exact h.calm rfl rfl rfl (fun _ => rfl) rfl
    | ok a => exact h.calm rfl rfl rfl (fun _ => rfl) rfl

/-- An event of its own. -/
theorem World.Traced.event {c : Call} {a : c.Ans} {e : FailedBlockEvent} {db₀ : Tables R}
    (h : w.Traced d.tables db₀) (hdb : (w.change d.tables c a).db = e.run d.tables w.db)
    (htx : (w.change d.tables c a).tx = none)
    (htrace : ∀ t : Trace, t.after c a = { t with events := t.events ++ [e] })
    (hretry : (retryOf c a).toList = retriesFrom d.tables w.db [e])
    (htime : ∀ now, e.time = some now → w.Reads now) :
    (w.after d.tables c a).Traced d.tables db₀ := by
  have hlog : trace (⟨c, a⟩ :: w.history.log) =
      { trace w.history.log with events := (trace w.history.log).events ++ [e] } := htrace _
  refine ⟨?_, ?_, ?_, ?_, ?_, ?_⟩
  · show runAll d.tables db₀ (trace (⟨c, a⟩ :: w.history.log)).events = (w.change d.tables c a).db
    rw [hlog, hdb, runAll_append, h.db]
    rfl
  · intro tx hm
    have hm' : tx ∈ (w.change d.tables c a).tx := hm
    rw [htx] at hm'
    cases hm'
  · show ((trace (⟨c, a⟩ :: w.history.log)).tx.map _).filterMap _ = _
    rw [hlog]
    exact h.untimed
  · show Clocked (trace (⟨c, a⟩ :: w.history.log)).events
    rw [hlog]
    exact h.clocked.append_singleton fun now hnow t ht => (htime now hnow).le t (h.read t ht)
  · show ∀ t : ℤ, t ∈ (trace (⟨c, a⟩ :: w.history.log)).events.filterMap _ → _
    rw [hlog, List.filterMap_append]
    intro t ht
    rcases List.mem_append.1 ht with ht | ht
    · exact List.mem_cons_of_mem _ (h.read t ht)
    · obtain ⟨e', hm, ht⟩ := List.mem_filterMap.1 ht
      rw [List.mem_singleton.1 hm] at ht
      exact List.mem_cons_of_mem _ (htime t ht).mem
  · show retried (⟨c, a⟩ :: w.history.log) =
      retriesFrom d.tables db₀ (trace (⟨c, a⟩ :: w.history.log)).events
    rw [hlog, retried_cons, hretry, retriesFrom_append, h.db, h.retries]

theorem World.Since.events_append {c : Call} {a : c.Ans} (h : w.Since d o isOpen)
    {stmts : List Stmt} (htrace : ((trace w.history.log).after c a).events =
      (trace w.history.log).events ++ stmts.map .statement) :
    ∃ stmts : List Stmt, (trace (w.after d.tables c a).history.log).events =
      o.events ++ stmts.map .statement := by
  obtain ⟨before, hbefore⟩ := h.events
  refine ⟨before ++ stmts, ?_⟩
  show ((trace w.history.log).after c a).events = _
  rw [htrace, hbefore, List.map_append, List.append_assoc]

theorem World.Since.tx_none (h : w.Since d o false) : w.tx = none :=
  Option.not_isSome_iff_eq_none.1 (by rw [h.tx]; exact Bool.false_ne_true)

/-- A statement outside of a transaction. -/
theorem World.Since.exec {stmt : Stmt} (h : w.Since d o false)
    (htime : ∀ now, FailedBlockEvent.time (.statement stmt) = some now → w.Reads now)
    (a : Except Error Unit) : (w.after d.tables (.exec stmt) a).Since d o false := by
  cases a with
  | error err => exact h.calm rfl rfl rfl (fun _ => rfl) rfl
  | ok u =>
    have hevents : ((trace w.history.log).after (.exec stmt) (.ok u)).events =
        (trace w.history.log).events ++ [stmt].map .statement := rfl
    exact ⟨h.traced.event (e := .statement stmt) rfl h.tx_none (fun _ => rfl) rfl htime,
      h.events_append hevents, h.retrying, h.tx⟩

/-- A statement of the transaction. -/
theorem World.Since.txExec {stmt : Stmt} (h : w.Since d o true)
    (htime : FailedBlockEvent.time (.statement stmt) = none) (a : Except Error Unit) :
    (w.after d.tables (.txExec stmt) a).Since d o true := by
  cases a with
  | error err => exact h.calm rfl rfl rfl (fun _ => rfl) rfl
  | ok u =>
    obtain ⟨tx, htx⟩ := Option.isSome_iff_exists.1 h.tx
    refine ⟨⟨h.traced.db, ?_, ?_, h.traced.clocked, ?_, ?_⟩, h.events, h.retrying, ?_⟩
    · intro tx' hm
      have hm' : w.tx.map (fun tx => (⟨stmt.run d.tables tx.work, txHeights stmt ++ tx.heights⟩ :
          Transaction R)) = some tx' := hm
      rw [htx] at hm'
      obtain rfl := Option.some.inj hm'
      show runAll d.tables w.db (((trace w.history.log).tx ++ [stmt]).map .statement) = _
      rw [List.map_append, runAll_append, h.traced.work tx htx]
      rfl
    · show (((trace w.history.log).tx ++ [stmt]).map _).filterMap _ = _
      rw [List.map_append, List.filterMap_append, h.traced.untimed]
      simp [htime]
    · exact fun t ht => List.mem_cons_of_mem _ (h.traced.read t ht)
    · show retried (⟨.txExec stmt, .ok u⟩ :: w.history.log) = _
      rw [retried_cons]
      exact (List.append_nil _).trans h.traced.retries
    · show (w.tx.map _).isSome = true
      rw [htx]
      rfl

theorem World.Since.begin (h : w.Since d o false) (u : Unit) :
    (w.after d.tables .begin (.ok u)).Since d o true := by
  refine ⟨⟨h.traced.db, ?_, rfl, h.traced.clocked, ?_, ?_⟩, h.events, h.retrying, rfl⟩
  · intro tx hm
    obtain rfl := Option.some.inj hm
    rfl
  · exact fun t ht => List.mem_cons_of_mem _ (h.traced.read t ht)
  · show retried (⟨.begin, .ok u⟩ :: w.history.log) = _
    rw [retried_cons]
    exact (List.append_nil _).trans h.traced.retries

/-- The transaction ends. -/
theorem World.Since.rollback (h : w.Since d o isOpen) {c : Call} {a : c.Ans}
    (hc : w.change d.tables c a = { w with tx := none }) (htrace : ∀ t : Trace, t.after c a = t)
    (hretry : retryOf c a = none) : (w.after d.tables c a).Since d o false := by
  have hlog : trace (⟨c, a⟩ :: w.history.log) = trace w.history.log := htrace _
  have htraced : (w.after d.tables c a).Traced d.tables o.db := by
    refine h.traced.calm (by rw [hc]) (fun tx hm => ?_) htrace hretry
    rw [hc] at hm
    cases hm
  refine ⟨htraced, ?_, ?_, ?_⟩
  · show ∃ stmts : List Stmt, (trace (⟨c, a⟩ :: w.history.log)).events = _
    rw [hlog]
    exact h.events
  · show (w.change d.tables c a).history.retrying = _
    rw [hc]
    exact h.retrying
  · show (w.change d.tables c a).tx.isSome = false
    rw [hc]
    rfl

theorem World.Since.commit (h : w.Since d o true) (a : Except Error Unit) :
    (w.after d.tables .commit a).Since d o false := by
  cases a with
  | error err => exact h.rollback rfl (fun _ => rfl) rfl
  | ok u =>
    obtain ⟨tx, htx⟩ := Option.isSome_iff_exists.1 h.tx
    have htimes : ((trace w.history.log).events ++
        (trace w.history.log).tx.map FailedBlockEvent.statement).filterMap FailedBlockEvent.time =
          (trace w.history.log).events.filterMap FailedBlockEvent.time := by
      rw [List.filterMap_append, h.traced.untimed, List.append_nil]
    refine ⟨⟨?_, nofun, h.traced.untimed, ?_, ?_, ?_⟩, h.events_append rfl, h.retrying, rfl⟩
    · show runAll d.tables o.db ((trace w.history.log).events ++ (trace w.history.log).tx.map _) =
        (w.tx.map (·.work)).getD w.db
      rw [runAll_append, h.traced.db, h.traced.work tx htx, htx]
      rfl
    · show List.Pairwise _ (((trace w.history.log).events ++
        (trace w.history.log).tx.map FailedBlockEvent.statement).filterMap _)
      rw [htimes]
      exact h.traced.clocked
    · show ∀ t : ℤ, t ∈ ((trace w.history.log).events ++
        (trace w.history.log).tx.map FailedBlockEvent.statement).filterMap _ → _
      rw [htimes]
      exact fun t ht => List.mem_cons_of_mem _ (h.traced.read t ht)
    · show retried (⟨.commit, .ok u⟩ :: w.history.log) = retriesFrom d.tables o.db
        ((trace w.history.log).events ++ (trace w.history.log).tx.map _)
      rw [retried_cons, retriesFrom_append, retriesFrom_statements, h.traced.retries]
      rfl

end

/-! ## What the indexing of blocks keeps -/

/-- What is known since the origin is still known after the program; a transaction is open before
    and after it, or not. -/
def KeepsSince {α : Type} (d : Indexer R) (rpc : Answers) (o : Origin R) (isOpen isOpen' : Bool)
    (p : Prog sig α) : Prop :=
  ∀ w : World R, w.Since d o isOpen →
    (Spec.anything (World R)).wp (timely d rpc) p (fun _ w' => w'.Since d o isOpen') w

section
variable {d : Indexer R} {rpc : Answers} {o : Origin R} {b b' b'' : Bool} {α β : Type}
  {w : World R}

theorem KeepsSince.ret (a : α) : KeepsSince d rpc o b b (.ret a : Prog sig α) := fun _ h => h

theorem KeepsSince.bind {p : Prog sig α} {f : α → Prog sig β} (hp : KeepsSince d rpc o b b' p)
    (hf : ∀ a, KeepsSince d rpc o b' b'' (f a)) : KeepsSince d rpc o b b'' (p >>= f) :=
  fun w h => Spec.wp_seq (hp w h) fun a w' h' => hf a w' h'

theorem KeepsSince.call {c : Call} (hc : c.Harmless) : KeepsSince d rpc o b b (perform c) :=
  fun _ h => ⟨trivial, fun a _ => ⟨trivial, h.harmless hc a⟩⟩

theorem KeepsSince.orReturn {p : Prog sig (Except Error α)} {f : α → Prog sig (Except Error β)}
    (hp : KeepsSince d rpc o b b p) (hf : ∀ a, KeepsSince d rpc o b b (f a)) :
    KeepsSince d rpc o b b (orReturn p f) := by
  refine hp.bind ?_
  rintro (err | a)
  · exact .ret _
  · exact hf a

theorem KeepsSince.wrapping {msg : String} {p : Prog sig (Except Error α)}
    (hp : KeepsSince d rpc o b b p) : KeepsSince d rpc o b b (wrapping msg p) :=
  hp.bind fun _ => .ret _

theorem KeepsSince.errorOf {p : Prog sig (Except Error Unit)} (hp : KeepsSince d rpc o b b p) :
    KeepsSince d rpc o b b (errorOf p) := by
  refine hp.bind ?_
  rintro (err | u)
  · exact .ret _
  · exact .ret _

/-- A statement that does not read the clock. -/
theorem keepsSince_execute (b : Bool) {stmt : Stmt}
    (htime : FailedBlockEvent.time (.statement stmt) = none) :
    KeepsSince d rpc o b b (execute b stmt) := by
  cases b with
  | true => exact fun _ h => ⟨trivial, fun a _ => ⟨trivial, h.txExec htime a⟩⟩
  | false =>
    refine fun _ h => ⟨trivial, fun a _ => ⟨trivial, h.exec (fun now hnow => ?_) a⟩⟩
    rw [htime] at hnow
    cases hnow

theorem keepsSince_setLatestIndexedBlock (b : Bool) (height : ℤ) :
    KeepsSince d rpc o b b (setLatestIndexedBlock d b height) :=
  .bind (.call trivial) fun _ => (keepsSince_execute b rfl).wrapping

theorem keepsSince_removeFailedBlockRecord (b : Bool) (height : ℤ) :
    KeepsSince d rpc o b b (removeFailedBlockRecord b height) :=
  (keepsSince_execute b rfl).wrapping

/-- The clock is read. -/
theorem reads_now {now : ℤ} (hnow : Timely .now now w) :
    (w.after d.tables .now now).Reads now where
  mem := List.mem_cons_self
  le t ht := by
    rcases List.mem_cons.1 ht with heq | ht
    · cases heq
      exact le_rfl
    · exact hnow t ht

theorem keepsSince_insertOrUpdateFailedBlocks (heights : List ℤ) (reason : Option Error) :
    KeepsSince d rpc o false false (insertOrUpdateFailedBlocks heights reason) := by
  refine fun w h => ⟨trivial, fun now hnow => ⟨trivial, trivial, fun a _ => ⟨trivial, ?_⟩⟩⟩
  refine (h.harmless (c := .now) trivial now).exec (fun now' hnow' => ?_) a
  cases hnow'
  exact reads_now hnow.2

theorem keepsSince_insertRecords {records : List α} {valid : Except Error Unit} {stmt : Stmt}
    (htime : FailedBlockEvent.time (.statement stmt) = none) :
    KeepsSince d rpc o true true (insertRecords records valid stmt) := by
  unfold insertRecords
  split_ifs
  · exact .ret _
  · cases valid with
    | error err => exact .ret _
    | ok u => exact keepsSince_execute true htime

theorem keepsSince_insertBlockInformation (height : ℤ) (block : BlockInResponse) :
    KeepsSince d rpc o true true (insertBlockInformation d height block) := by
  refine .bind (.call trivial) fun order => ?_
  cases blockInformation d.sdk order d.chainId d.bech32Cfg height block with
  | error err => exact .ret _
  | ok records =>
    exact (keepsSince_insertRecords rfl).wrapping.orReturn fun _ =>
      (keepsSince_insertRecords rfl).wrapping.orReturn fun _ =>
      (keepsSince_insertRecords rfl).wrapping.orReturn fun _ =>
      (keepsSince_insertRecords rfl).wrapping

theorem keepsSince_blockStatements (block : BlockInResponse) :
    KeepsSince d rpc o true true (blockStatements d block) := by
  refine (keepsSince_insertBlockInformation block.height block).orReturn fun _ =>
    KeepsSince.orReturn ?_ fun _ => (keepsSince_setLatestIndexedBlock true block.height).orReturn
      fun _ => keepsSince_removeFailedBlockRecord true block.height
  split_ifs
  · exact keepsSince_execute true rfl
  · exact .ret _

theorem keepsSince_markFailedBlock (height : ℤ) (err : Error) :
    KeepsSince d rpc o false false (markFailedBlock height err) :=
  (keepsSince_insertOrUpdateFailedBlocks [height] (some err)).errorOf

theorem keepsSince_preparePartitions (block : BlockInResponse) :
    KeepsSince d rpc o false false (preparePartitions d block) := by
  refine .bind (.call trivial) fun now => .bind (.call trivial) fun isCreated => ?_
  split_ifs
  · exact .ret _
  · refine .bind (.call trivial) ?_
    rintro (err | u)
    · exact .ret _
    · exact .bind (.call trivial) fun _ => .ret _

/-- The transaction of a block ends with a commit or is rolled back. -/
theorem keepsSince_indexTransactions (block : BlockInResponse) :
    KeepsSince d rpc o false false (indexTransactions d block) := by
  refine fun w h => Spec.wp_call_bind trivial fun a _ => ⟨trivial, ?_⟩
  cases a with
  | error err => exact h.calm rfl rfl rfl (fun _ => rfl) rfl
  | ok u =>
    refine Spec.wp_seq (keepsSince_blockStatements block _ (h.begin u)) ?_
    rintro (err | u) w₁ h₁
    · refine Spec.wp_call_bind trivial fun a _ => ⟨trivial, ?_⟩
      exact keepsSince_markFailedBlock block.height err _ (h₁.rollback rfl (fun _ => rfl) rfl)
    · refine Spec.wp_call_bind trivial fun a _ => ⟨trivial, ?_⟩
      have h₂ := h₁.commit a
      cases a with
      | error err => exact keepsSince_markFailedBlock block.height err _ h₂
      | ok u => exact h₂

theorem keepsSince_indexBlock (block : BlockInResponse) :
    KeepsSince d rpc o false false (indexBlock d block) := by
  unfold indexBlock
  split_ifs
  · exact fun _ _ => trivial
  · exact (keepsSince_setLatestIndexedBlock false block.height).errorOf
  · refine (keepsSince_preparePartitions block).bind ?_
    rintro (err | u)
    · exact .ret _
    · exact keepsSince_indexTransactions block

theorem keepsSince_indexBlocks (blocks : List BlockInResponse) :
    KeepsSince d rpc o false false (indexBlocks d blocks) := by
  induction blocks with
  | nil => exact .ret _
  | cons block blocks ih =>
    refine (keepsSince_indexBlock block).bind ?_
    rintro (_ | err)
    · exact ih
    · exact .ret _

theorem keepsSince_markReported (heights : List ℤ) (reason : Error) :
    KeepsSince d rpc o false false (markReported heights reason) := by
  unfold markReported
  split_ifs
  · exact (keepsSince_insertOrUpdateFailedBlocks heights (some reason)).errorOf
  · exact .ret _

/-- **Indexing a range** of blocks. -/
theorem keepsSince_fetchAndIndexingBlockRange (f t : ℤ) :
    KeepsSince d rpc o false false (fetchAndIndexingBlockRange d f t) := by
  refine .bind (.call trivial) ?_
  rintro (err | res)
  · dsimp only
    split_ifs
    · exact .bind (.call trivial) fun _ => .ret _
    · exact .ret _
  · refine .bind ?_ fun _ => .ret _
    refine (keepsSince_markReported res.errorBlocks "rpc marks error").bind ?_
    rintro (_ | err)
    · refine (keepsSince_markReported res.missingBlocks "rpc marks missing").bind ?_
      rintro (_ | err)
      · exact keepsSince_indexBlocks (sortBlocks res.blocks)
      · exact .ret _
    · exact .ret _

theorem keepsSince_determineBlockRangeToIndex (latest upstream : ℤ) :
    KeepsSince d rpc o false false (determineBlockRangeToIndex latest upstream) := by
  intro w h
  unfold determineBlockRangeToIndex
  split_ifs
  · trivial
  · refine Spec.wp_mono ?_ (wp_getClosesRangeWithExtensible_passed
      (I := fun w => w.Since d o false) (E := fun _ w => w.Since d o false) (fun _ _ => trivial)
      (fun f t w hw => ?_) h)
    · rintro (err | r) w' hw'
      · exact hw'
      · exact hw'
    · refine Spec.wp_call_bind trivial fun a _ => ⟨trivial, ?_⟩
      have hw' := hw.harmless (c := .selectFailedBlocksInRange f t) trivial a
      cases a with
      | error err => exact hw'
      | ok heights => exact hw'

/-- **New blocks** are indexed. -/
theorem keepsSince_indexNewBlocks (latest upstream : ℤ) :
    KeepsSince d rpc o false false (indexNewBlocks d latest upstream) := by
  have hrefresh : KeepsSince d rpc o false false (refreshUpstream upstream) := by
    refine .bind (.call trivial) fun elapsed => ?_
    split_ifs
    · refine .bind (.call trivial) ?_
      rintro (err | info)
      · exact .ret _
      · exact .ret _
    · exact .ret _
  unfold indexNewBlocks
  split_ifs
  · exact .ret _
  · refine (keepsSince_determineBlockRangeToIndex latest upstream).bind ?_
    rintro (err | ⟨anyBlock, f, t⟩)
    · exact .ret _
    · dsimp only
      split_ifs
      · refine (keepsSince_fetchAndIndexingBlockRange f t).bind fun result => ?_
        cases result.fatalError with
        | none =>
          refine hrefresh.bind fun upstream' => ?_
          split_ifs
          · exact .ret _
          · exact .ret _
        | some err =>
          exact .bind (.bind (keepsSince_insertOrUpdateFailedBlocks (numbers f t) (some err))
            fun _ => .ret ()) fun _ => .ret _
      · exact .ret _

end

/-! ## Retries -/

/-- Between two batches: every block that was retried has been settled. -/
structure World.Between (d : Indexer R) (db₀ : Tables R) (w : World R) : Prop where
  traced : w.Traced d.tables db₀
  tx : w.tx = none
  settled : RetriesSettled d.tables db₀ (trace w.history.log).events

/-- The block has been settled since the origin. -/
structure World.SettledSince (d : Indexer R) (o : Origin R) (h : ℤ) (w : World R) : Prop where
  since : w.Since d o false
  next : ∃ stmts : List Stmt, (trace w.history.log).events = o.events ++ stmts.map .statement ∧
    SettledNext h (stmts.map .statement)

section
variable {d : Indexer R} {rpc : Answers} {o : Origin R} {w : World R} {h : ℤ}

theorem World.Since.between (hw : w.Since d o false)
    (hsettled : RetriesSettled d.tables o.db o.events) : w.Between d o.db := by
  obtain ⟨stmts, hevents⟩ := hw.events
  refine ⟨hw.traced, hw.tx_none, ?_⟩
  rw [hevents]
  exact hsettled.append (settled_statements stmts)

/-- A statement that settles the block that is retried. -/
theorem World.Since.settle {stmt : Stmt} {a : Except Error Unit} (hw : w.Since d o false)
    (hretrying : o.retrying = some h) (ha : Timely (.exec stmt) a w)
    (htime : ∀ now, FailedBlockEvent.time (.statement stmt) = some now → w.Reads now)
    (hsettles : stmt.Settles h) (hexecutable : stmt.Executable) :
    (w.after d.tables (.exec stmt) a).SettledSince d o h := by
  obtain rfl : a = .ok () := ha ⟨h, hw.retrying.trans hretrying, hsettles⟩ hexecutable
  obtain ⟨stmts, hevents⟩ := hw.events
  refine ⟨hw.exec htime _, stmts ++ [stmt], ?_, ?_⟩
  · show (trace w.history.log).events ++ [.statement stmt] = _
    rw [hevents, List.map_append, List.append_assoc]
    rfl
  · exact .of_mem (List.mem_append_right _ (List.mem_singleton_self _)) hsettles

/-- **The outcome of a retry** is recorded. -/
theorem wp_settleRetry_settled (retryIndexErr : Option Error) (hw : w.Since d o false)
    (hretrying : o.retrying = some h) :
    (Spec.anything (World R)).wp (timely d rpc) (settleRetry h retryIndexErr)
      (fun _ w' => w'.SettledSince d o h) w := by
  cases retryIndexErr with
  | none =>
    refine ⟨trivial, fun a ha => ⟨trivial, ?_⟩⟩
    refine hw.settle hretrying ha.2 (fun now hnow => ?_) rfl trivial
    cases hnow
  | some err =>
    refine ⟨trivial, fun now hnow => ⟨trivial, trivial, fun a ha => ⟨trivial, ?_⟩⟩⟩
    refine (hw.harmless (c := .now) trivial now).settle hretrying ha.2 (fun now' hnow' => ?_)
      (List.mem_singleton_self h) ⟨List.cons_ne_nil h [], List.nodup_singleton h⟩
    cases hnow'
    exact reads_now hnow.2

/-- A block is selected. -/
theorem World.Since.select {now height : ℤ} (hw : w.Since d o false) (hreads : w.Reads now)
    (hheight : height = selectedBlock w.db.failedBlock now) :
    (w.after d.tables (.selectOneFailedBlock retryIndexingFailedBlockMaxRetries
      (now - retryIndexingFailedBlockGapSeconds)) (.ok height)).Since d
      ⟨o.db, (trace w.history.log).events ++ [.getOneFailedBlock now], some height⟩ false := by
  have hnow : now - retryIndexingFailedBlockGapSeconds + retryIndexingFailedBlockGapSeconds = now :=
    sub_add_cancel ..
  have htrace : ∀ t : Trace, t.after (.selectOneFailedBlock retryIndexingFailedBlockMaxRetries
      (now - retryIndexingFailedBlockGapSeconds)) (.ok height) =
        { t with events := t.events ++ [.getOneFailedBlock now] } := by
    intro t
    rw [Trace.after, hnow]
  refine ⟨hw.traced.event rfl hw.tx_none htrace ?_ ?_, ⟨[], ?_⟩, rfl, hw.tx⟩
  · show [(now - retryIndexingFailedBlockGapSeconds + retryIndexingFailedBlockGapSeconds,
      height)] = _
    rw [hnow, hheight]
    rfl
  · rintro _ ⟨⟩
    exact hreads
  · exact (congrArg Trace.events (htrace _)).trans (List.append_nil _).symm

/-- **A retry** is settled before the next one. -/
theorem wp_retryFailedBlock_between (hw : w.Since d o false)
    (hsettled : RetriesSettled d.tables o.db o.events) :
    (Spec.anything (World R)).wp (timely d rpc) (retryFailedBlock d)
      (fun _ w' => w'.Between d o.db) w := by
  refine ⟨trivial, fun now hnow => ⟨trivial, trivial, fun a ha => ⟨trivial, ?_⟩⟩⟩
  have h₁ := hw.harmless (c := .now) trivial now
  cases a with
  | error err => exact (h₁.calm rfl rfl rfl (fun _ => rfl) rfl).between hsettled
  | ok height =>
    have hselected : height = selectedBlock (w.after d.tables .now now).db.failedBlock now :=
      ha.1 height rfl
    have h₂ := h₁.select (reads_now hnow.2) hselected
    have hbetween := h₁.between hsettled
    -- What follows the query, if the block is settled before the next one.
    have hafter : ∀ stmts : List Stmt, (0 < height → SettledNext height (stmts.map .statement)) →
        RetriesSettled d.tables o.db ((trace (w.after d.tables .now now).history.log).events ++
          [.getOneFailedBlock now] ++ stmts.map .statement) := by
      intro stmts hnext
      rw [List.append_assoc]
      refine hbetween.settled.append ⟨settled_statements stmts, ?_⟩
      rw [hbetween.traced.db, ← hselected]
      exact hnext
    show Spec.wp _ _ (if height > 0 then retryHeight d height else return ()) _ _
    split_ifs with hpos
    · refine Spec.wp_seq (keepsSince_fetchAndIndexingBlockRange height height _ h₂) ?_
      intro result w₃ h₃
      refine Spec.wp_mono (fun _ w₄ h₄ => ?_) (wp_settleRetry_settled result.fatalError h₃ rfl)
      obtain ⟨stmts, hevents, hnext⟩ := h₄.next
      refine ⟨h₄.since.traced, h₄.since.tx_none, ?_⟩
      rw [hevents]
      exact hafter stmts fun _ => hnext
    · have hnone := hafter [] fun hpos' => absurd hpos' hpos
      rw [List.map_nil, List.append_nil] at hnone
      exact h₂.between hnone

/-! ## Iterations -/

theorem wp_indexing_between (info : ResponseBeGetChainInfo) (hw : w.Since d o false)
    (hsettled : RetriesSettled d.tables o.db o.events) :
    (Spec.anything (World R)).wp (timely d rpc) (indexing d info)
      (fun _ w' => w'.Between d o.db) w := by
  have hlatest : KeepsSince d rpc o false false (getLatestIndexedBlock d) := by
    refine .bind (.call trivial) ?_
    rintro (err | ⟨height, postponed, expiryAtEpoch⟩)
    · exact .ret _
    · exact .bind (.call trivial) fun now => .ret _
  refine Spec.wp_seq (hlatest w hw) ?_
  rintro (err | ⟨latest, isPostponedChain⟩) w₁ h₁
  · exact h₁.between hsettled
  · dsimp only
    split_ifs
    · exact h₁.between hsettled
    · refine Spec.wp_call_bind trivial fun a _ => ⟨trivial, ?_⟩
      exact (h₁.harmless (c := .forceResetActiveJsonRpcUrl) trivial a).between hsettled
    · refine Spec.wp_seq (keepsSince_indexNewBlocks latest info.latestBlock w₁ h₁) ?_
      rintro (err | ⟨catchUp, checkRetryIndexFailedBlock⟩) w₂ h₂
      · exact h₂.between hsettled
      · dsimp only
        split_ifs
        · exact Spec.wp_seq (wp_retryFailedBlock_between h₂ hsettled) fun _ _ h => h
        · exact h₂.between hsettled

/-- **An iteration** retries one block at most, and settles it. -/
theorem wp_iteration_between {db₀ : Tables R} (last : LoopResult) (hw : w.Between d db₀) :
    (Spec.anything (World R)).wp (timely d rpc) (iteration d last)
      (fun _ w' => w'.Between d db₀) w := by
  refine Spec.wp_call_bind trivial ?_
  rintro ⟨activeJsonRpcUrl, chainInfo⟩ -
  refine ⟨trivial, ?_⟩
  have h₁ : World.Since d ⟨db₀, (trace w.history.log).events, none⟩ false
      (w.after d.tables .refreshActiveJsonRpcUrl (activeJsonRpcUrl, chainInfo)) :=
    ⟨hw.traced.calm rfl (fun _ hm => hm) (fun _ => rfl) rfl, ⟨[], (List.append_nil _).symm⟩, rfl,
      Option.isSome_eq_false_iff.2 (Option.isNone_iff_eq_none.2 hw.tx)⟩
  have hreset : ∀ {w' : World R} {Q : LoopResult},
      w'.Since d ⟨db₀, (trace w.history.log).events, none⟩ false →
      (Spec.anything (World R)).wp (timely d rpc)
        (do perform .forceResetActiveJsonRpcUrl; return Q) (fun _ w' => w'.Between d db₀) w' :=
    fun h' => Spec.wp_call_bind trivial fun a _ =>
      ⟨trivial, (h'.harmless (c := .forceResetActiveJsonRpcUrl) trivial a).between hw.settled⟩
  have hquery : KeepsSince d rpc ⟨db₀, (trace w.history.log).events, none⟩ false false
      (queryChainInfo chainInfo) := by
    cases chainInfo with
    | some info => exact .ret _
    | none => exact .call trivial
  dsimp only
  split_ifs
  · exact hreset h₁
  · refine Spec.wp_seq (hquery _ h₁) ?_
    rintro (err | info) w₂ h₂
    · exact h₂.between hw.settled
    · dsimp only
      split_ifs
      · exact hreset h₂
      · exact wp_indexing_between info h₂ hw.settled

end

theorem between_of_rounds {d : Indexer R} {rpc : Answers} {w₀ w : World R}
    {rs : List (Service.Round (World R) LoopResult)} {last : LoopResult}
    (hlog : w₀.history.log = []) (htx : w₀.tx = none)
    (hrun : (timelyLoop d rpc).Rounds w₀ rs last w) : w.Between d w₀.db := by
  have h₀ : w₀.Between d w₀.db := by
    refine ⟨⟨?_, ?_, ?_, ?_, ?_, ?_⟩, htx, ?_⟩
    · rw [hlog]
      rfl
    · rw [htx]
      exact fun _ hm => nomatch hm
    · rw [hlog]
      rfl
    · rw [hlog]
      exact List.Pairwise.nil
    · rw [hlog]
      exact fun _ hm => absurd hm List.not_mem_nil
    · rw [hlog]
      rfl
    · rw [hlog]
      trivial
  refine Service.Rounds.induct (P := fun _ w => w.Between d w₀.db) h₀ (fun rs last w hw => ?_) hrun
  exact ⟨Spec.anything _, wp_iteration_between last hw⟩

/-- **Which failed blocks are retried**: in every run of complete iterations, in which the clock
    does not go back and the outcomes of the retries are recorded, a block is not retried twice
    within a minute, and at most a hundred times for each time it is recorded as failed while it is
    not.  So a block that may be retried whenever one is selected waits for no more retries than
    those above it have together, and for one of each if they fall within a minute. -/
theorem mainLoop_retries (d : Indexer R) (rpc : Answers) {w₀ w : World R}
    {rs : List (Service.Round (World R) LoopResult)} {last : LoopResult}
    (hlog : w₀.history.log = []) (htx : w₀.tx = none)
    (hrun : (timelyLoop d rpc).Rounds w₀ rs last w) :
    runAll d.tables w₀.db (trace w.history.log).events = w.db ∧
    (retried w.history.log).Pairwise Spaced ∧
    (∀ h, 0 < h → ((retried w.history.log).map Prod.snd).count h ≤
      retryBound d.tables h w₀.db (trace w.history.log).events) ∧
    ∀ (h : ℤ) (S : Finset ℤ), 0 < h →
      AtQueries d.tables (WaitsFor h S) w₀.db (trace w.history.log).events →
      h ∉ (retried w.history.log).map Prod.snd →
      (retried w.history.log).length ≤
        ∑ k ∈ S, retryBound d.tables k w₀.db (trace w.history.log).events ∧
      ((∀ retry ∈ retried w.history.log, ∀ retry' ∈ retried w.history.log,
        retry'.1 ≤ retry.1 + 60) → (retried w.history.log).length ≤ S.card) := by
  obtain ⟨htraced, -, hsettled⟩ := between_of_rounds hlog htx hrun
  rw [htraced.retries]
  refine ⟨htraced.db, retries_spaced htraced.clocked hsettled, ?_, ?_⟩
  · exact fun h hpos => retries_bounded hpos hsettled
  · exact fun h S hpos hwaits hnever =>
      retries_of_waits hpos htraced.clocked hsettled hwaits hnever

/-- An upstream with two blocks, which does not answer for either of them. -/
def withoutBlocks : Scenario Unit where
  chainInfo _ := sampleChainInfo 2
  response _ _ _ := none
  fails _ _ := false

/-- The reading of the clock, if the call is one. -/
def reading : (c : Call) → c.Ans → ℤ
  | .now, now => now
  | _, _ => 0

/-- The last reading, or else 100. -/
def clockAfter (log : List Answered) : ℤ := log.foldr (fun e now => max (reading e.1 e.2) now) 100

theorem le_clockAfter {log : List Answered} {t : ℤ} (h : ⟨.now, t⟩ ∈ log) : t ≤ clockAfter log := by
  induction log with
  | nil => cases h
  | cons e log ih =>
    rcases List.mem_cons.1 h with rfl | h
    · exact le_max_left _ _
    · exact (ih h).trans (le_max_right _ _)

/-- The clock stands still. -/
def stoppedClock : Script sig (World Unit)
  | .now, w => clockAfter w.history.log
  | c, w => withoutBlocks.answer (sampleIndexer false) AnyAnswer c w

theorem stoppedClock_timely (c : Call) (w : World Unit) :
    (timely (sampleIndexer false) AnyAnswer).allows c (stoppedClock c w) w := by
  have hallowed := withoutBlocks.allowed (sampleIndexer false) AnyAnswer c w
  cases c with
  | now => exact ⟨trivial, fun t ht => le_clockAfter ht⟩
  | exec stmt => exact ⟨hallowed, fun _ hstmt => if_pos hstmt⟩
  | elapsed | mapOrder | refreshActiveJsonRpcUrl | forceResetActiveJsonRpcUrl | beGetChainInfo
  | beGetLatestBlockNumber | beTransactionsInBlockRange | isCreatedPartitions
  | markCreatedPartitions | preparePartitions | selectLatestIndexedBlock | selectOneFailedBlock
  | selectFailedBlocksInRange | begin | txExec | commit | rollback => exact ⟨hallowed, trivial⟩

/-- A database in which both blocks are recorded as failed. -/
def twoFailedBlocks : World Unit where
  db := ⟨2, 0, [1, 2].foldr (fun h rows => AList.insert h ⟨0, 0, []⟩ rows) ∅, ()⟩
  tx := none
  createdPartitions := []
  history := .start

/-- An iteration in which the clock stands still. -/
def iterated (last : LoopResult) (w : World Unit) : Prog sig LoopResult × World Unit :=
  stoppedClock.drive (timely (sampleIndexer false) AnyAnswer) 12
    (iteration (sampleIndexer false) last, w)

def resultOf : Prog sig LoopResult → LoopResult
  | .ret r => r
  | _ => ⟨false, none⟩

theorem iterated_run (last : LoopResult) (w : World Unit)
    (h : (iterated last w).1.returned (fun _ => true) = true) :
    Run (timely (sampleIndexer false) AnyAnswer) (iteration (sampleIndexer false) last, w)
      (.ret (resultOf (iterated last w).1), (iterated last w).2) := by
  have hrun := Script.drive_run stoppedClock_timely 12 (iteration (sampleIndexer false) last, w)
  obtain ⟨r, hr, -⟩ := Prog.exists_ret h
  have heq : iterated last w = (.ret (resultOf (iterated last w).1), (iterated last w).2) :=
    Prod.ext (by rw [hr]; rfl) rfl
  exact heq ▸ hrun

/-- The second block is retried first, and the first one instead of it a moment later. -/
theorem mainLoop_retries_twoFailed : ∃ rs last w,
    (timelyLoop (sampleIndexer false) AnyAnswer).Rounds twoFailedBlocks rs last w ∧
      retried w.history.log = [(100, 2), (100, 1)] ∧ (retried w.history.log).Pairwise Spaced := by
  have h₁ := iterated_run ⟨false, none⟩ twoFailedBlocks (by decide)
  have h₂ := iterated_run (resultOf (iterated ⟨false, none⟩ twoFailedBlocks).1)
    (iterated ⟨false, none⟩ twoFailedBlocks).2 (by decide)
  have hrounds := Service.Rounds.round (V := timelyLoop (sampleIndexer false) AnyAnswer)
    (.round .start h₁) h₂
  exact ⟨_, _, _, hrounds, by decide,
    (mainLoop_retries (sampleIndexer false) AnyAnswer rfl rfl hrounds).2.1⟩

end RollappExplorer
