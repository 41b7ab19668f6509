/-
  Which failed blocks are retried, over all statements on `failed_block`.

  * `FailedBlockEvent`: a statement, or the query for a block to retry;
  * `RetriesSettled`: after a query, the block to retry is removed or recorded as failed again,
    before the next query;
  * `retries_spaced`: then a block is not retried twice within a minute;
  * `retries_bounded`: nor more than a hundred times for each time it is recorded as failed while
    it is not;
  * `retries_of_waits`: a block that may be retried has to wait for others, above it, which are
    retried once a minute at most.
-/
import Mathlib.Algebra.Order.BigOperators.Group.Finset
import RollappExplorer.Database
import RollappExplorer.Validation

namespace RollappExplorer

open Go

/-! ## Events -/

/-- What happens to the rows of `failed_block`, or is read of them. -/
inductive FailedBlockEvent
  | statement (stmt : Stmt)
  | getOneFailedBlock (now : ℤ)

/-- The clock at the event, if it reads it. -/
def FailedBlockEvent.time : FailedBlockEvent → Option ℤ
  | .statement (.upsertFailedBlocks now _ _) => some now
  | .statement _ => none
  | .getOneFailedBlock now => some now

/-- The block that `GetOneFailedBlock` selects. -/
def selectedBlock (rows : Map ℤ FailedBlock) (now : ℤ) : ℤ :=
  oneFailedBlock rows retryIndexingFailedBlockMaxRetries (now - retryIndexingFailedBlockGapSeconds)

/-- The statement removes the block, or records it as failed. -/
def Stmt.Settles (h : ℤ) : Stmt → Prop
  | .upsertFailedBlocks _ _ heights => h ∈ heights
  | .deleteFailedBlock height => height = h
  | _ => False

/-- The block may be retried. -/
def Waits (h now : ℤ) (rows : Map ℤ FailedBlock) : Prop :=
  ∃ row, rows.lookup h = some row ∧ row.retryCount < retryIndexingFailedBlockMaxRetries ∧
    row.lastRetryEpoch < now - retryIndexingFailedBlockGapSeconds

/-- How often a block may be retried, with this row. -/
def retriesLeft : Option FailedBlock → ℕ
  | none => 0
  | some row => (retryIndexingFailedBlockMaxRetries - row.retryCount).toNat

section
variable {R : Type} (tables : RecordTables R)

/-- The tables after the event. -/
def FailedBlockEvent.run : FailedBlockEvent → Tables R → Tables R
  | .statement stmt, db => stmt.run tables db
  | .getOneFailedBlock _, db => db

/-- The tables after all events. -/
def runAll : Tables R → List FailedBlockEvent → Tables R := List.foldl fun db e => e.run tables db

/-- The queries: when, and for which block; zero if there is none. -/
def retriesFrom : Tables R → List FailedBlockEvent → List (ℤ × ℤ)
  | _, [] => []
  | db, .statement stmt :: events => retriesFrom (stmt.run tables db) events
  | db, .getOneFailedBlock now :: events =>
    (now, selectedBlock db.failedBlock now) :: retriesFrom db events

/-- The block is removed, or recorded as failed, before the next query. -/
def SettledNext (h : ℤ) : List FailedBlockEvent → Prop
  | [] => False
  | .statement stmt :: events => stmt.Settles h ∨ SettledNext h events
  | .getOneFailedBlock _ :: _ => False

/-- After every query, the block is removed or recorded as failed before the next one. -/
def RetriesSettled : Tables R → List FailedBlockEvent → Prop
  | _, [] => True
  | db, .statement stmt :: events => RetriesSettled (stmt.run tables db) events
  | db, .getOneFailedBlock now :: events => RetriesSettled db events ∧
    (0 < selectedBlock db.failedBlock now → SettledNext (selectedBlock db.failedBlock now) events)

/-- How often the block is recorded as failed while it is not. -/
def recordings (h : ℤ) : Tables R → List FailedBlockEvent → ℕ
  | _, [] => 0
  | db, .statement stmt :: events =>
    (if h ∉ db.failedBlock ∧ h ∈ (stmt.run tables db).failedBlock then 1 else 0) +
      recordings h (stmt.run tables db) events
  | db, .getOneFailedBlock _ :: events => recordings h db events

/-- The condition holds at every query. -/
def AtQueries (P : ℤ → Map ℤ FailedBlock → Prop) : Tables R → List FailedBlockEvent → Prop
  | _, [] => True
  | db, .statement stmt :: events => AtQueries P (stmt.run tables db) events
  | db, .getOneFailedBlock now :: events => P now db.failedBlock ∧ AtQueries P db events

end

/-- No event reads a clock before `t`. -/
def NotBefore (t : ℤ) (events : List FailedBlockEvent) : Prop :=
  ∀ t' ∈ events.filterMap FailedBlockEvent.time, t ≤ t'

/-- The clock does not go back. -/
def Clocked (events : List FailedBlockEvent) : Prop :=
  (events.filterMap FailedBlockEvent.time).Pairwise (· ≤ ·)

/-! ## What is selected -/

section
variable {rows : Map ℤ FailedBlock} {h now : ℤ}

/-- The blocks that may be retried. -/
def waiting (rows : Map ℤ FailedBlock) (now : ℤ) : List ℤ :=
  (rows.pairs.filter fun x => decide (x.2.retryCount < retryIndexingFailedBlockMaxRetries) &&
    decide (x.2.lastRetryEpoch < now - retryIndexingFailedBlockGapSeconds)).map Prod.fst

theorem mem_waiting : h ∈ waiting rows now ↔ Waits h now rows := by
  simp only [waiting, Waits, List.mem_map, List.mem_filter, Bool.and_eq_true, decide_eq_true_eq]
  constructor
  · rintro ⟨⟨k, row⟩, ⟨hrow, hwaits⟩, rfl⟩
    exact ⟨row, Map.mem_pairs.1 hrow, hwaits⟩
  · rintro ⟨row, hrow, hwaits⟩
    exact ⟨(h, row), ⟨Map.mem_pairs.2 hrow, hwaits⟩, rfl⟩

/-- The greatest of them is selected. -/
theorem selectedBlock_eq : selectedBlock rows now = (waiting rows now).max?.getD 0 := rfl

theorem selectedBlock_pos (hpos : 0 < selectedBlock rows now) :
    Waits (selectedBlock rows now) now rows := by
  rw [selectedBlock_eq] at hpos ⊢
  cases hmax : (waiting rows now).max? with
  | none =>
    rw [hmax] at hpos
    exact absurd hpos (lt_irrefl 0)
  | some height => exact mem_waiting.1 (List.max?_mem hmax)

theorem Waits.le_selectedBlock (hwaits : Waits h now rows) : h ≤ selectedBlock rows now := by
  have hm := mem_waiting.2 hwaits
  rw [selectedBlock_eq]
  cases hmax : (waiting rows now).max? with
  | none =>
    rw [List.max?_eq_none_iff.1 hmax] at hm
    cases hm
  | some height => exact (List.max?_eq_some_iff.1 hmax).2 h hm

end

/-! ## What a statement does to a row -/

section
variable {R : Type} {tables : RecordTables R} {db : Tables R} {h t now : ℤ} {stmt : Stmt}
  {rows : Map ℤ FailedBlock} {heights : List ℤ} {errs : List String}

/-- The row of a block that is recorded as failed. -/
def FailedBlock.again (now : ℤ) (errs : List String) : Option FailedBlock → FailedBlock
  | none => ⟨0, now, errs⟩
  | some row => ⟨row.retryCount + 1, max now row.lastRetryEpoch, errs ++ row.errorMessages⟩

theorem lookup_upsertFailedBlock {height : ℤ} :
    (upsertFailedBlock now errs rows height).lookup h =
      if h = height then some (FailedBlock.again now errs (rows.lookup h)) else rows.lookup h := by
  unfold upsertFailedBlock
  split_ifs with heq
  · subst heq
    rw [AList.lookup_insert]
    cases rows.lookup h <;> rfl
  · exact AList.lookup_insert_ne heq

/-- A property of the row of a block that every record of a failure establishes or keeps. -/
theorem upsertFailedBlocks_keeps {P : Option FailedBlock → Prop}
    (hagain : ∀ row, P row → P (some (FailedBlock.again now errs row)))
    (hP : P (rows.lookup h)) :
    P ((heights.foldl (upsertFailedBlock now errs) rows).lookup h) := by
  induction heights generalizing rows with
  | nil => exact hP
  | cons height heights ih =>
    refine ih ?_
    rw [lookup_upsertFailedBlock]
    split_ifs
    · exact hagain _ hP
    · exact hP

/-- What a record of a failure establishes, and others keep. -/
theorem upsertFailedBlocks_establishes {P Q : Option FailedBlock → Prop}
    (hagain : ∀ row, P row → Q (some (FailedBlock.again now errs row)))
    (hQ : ∀ row, Q row → Q (some (FailedBlock.again now errs row)))
    (hP : P (rows.lookup h)) (hh : h ∈ heights) :
    Q ((heights.foldl (upsertFailedBlock now errs) rows).lookup h) := by
  induction heights generalizing rows with
  | nil => cases hh
  | cons height heights ih =>
    rw [List.foldl_cons]
    by_cases heq : h = height
    · refine upsertFailedBlocks_keeps hQ ?_
      rw [lookup_upsertFailedBlock, if_pos heq]
      exact hagain _ hP
    · refine ih ?_ ((List.mem_cons.1 hh).resolve_left heq)
      rw [lookup_upsertFailedBlock, if_neg heq]
      exact hP

/-- A statement that does not remove the block keeps what every record of a failure keeps. -/
theorem Stmt.run_keeps {P : Option FailedBlock → Prop}
    (hagain : ∀ now errs row, FailedBlockEvent.time (.statement stmt) = some now → P row →
      P (some (FailedBlock.again now errs row)))
    (hremoved : stmt ≠ .deleteFailedBlock h) (hP : P (db.failedBlock.lookup h)) :
    P ((stmt.run tables db).failedBlock.lookup h) := by
  cases stmt with
  | upsertFailedBlocks now errs heights =>
    exact upsertFailedBlocks_keeps (fun row => hagain now errs row rfl) hP
  | deleteFailedBlock height =>
    have hne : h ≠ height := by
      rintro rfl
      exact hremoved rfl
    show P ((db.failedBlock.erase height).lookup h)
    rwa [AList.lookup_erase_ne hne]
  | updateLatestIndexedBlock height now =>
    have hrows : (Stmt.run tables (.updateLatestIndexedBlock height now) db).failedBlock =
        db.failedBlock := by
      simp only [Stmt.run]
      split_ifs
      · rfl
      · rfl
    rwa [hrows]
  | insertTransactions | insertAccounts | insertRecentAccountTransactions
  | insertRefAccountToRecentTx | cleanupZeroRefCount => exact hP

theorem lookup_deleteFailedBlock :
    (Stmt.run tables (.deleteFailedBlock h) db).failedBlock.lookup h = none :=
  AList.lookup_erase h db.failedBlock

/-- Other statements leave the row as it is. -/
theorem Stmt.lookup_run (hsettles : ¬ stmt.Settles h) :
    (stmt.run tables db).failedBlock.lookup h = db.failedBlock.lookup h := by
  cases stmt with
  | upsertFailedBlocks now errs heights =>
    have hkeeps : ∀ rows : Map ℤ FailedBlock, h ∉ heights →
        (heights.foldl (upsertFailedBlock now errs) rows).lookup h = rows.lookup h := by
      induction heights with
      | nil => exact fun _ _ => rfl
      | cons height heights ih =>
        intro rows hh
        rw [List.foldl_cons, ih (fun hh => hsettles (List.mem_cons_of_mem _ hh)) _
          (fun hm => hh (List.mem_cons_of_mem _ hm)), lookup_upsertFailedBlock,
          if_neg fun heq : h = height => hh (heq ▸ List.mem_cons_self)]
    exact hkeeps _ hsettles
  | deleteFailedBlock height => exact AList.lookup_erase_ne fun heq => hsettles heq.symm
  | updateLatestIndexedBlock | insertTransactions | insertAccounts
  | insertRecentAccountTransactions | insertRefAccountToRecentTx | cleanupZeroRefCount =>
    refine Stmt.run_keeps (P := fun row => row = db.failedBlock.lookup h) ?_ ?_ rfl
    · rintro now errs row ⟨⟩
    · rintro ⟨⟩

/-- The block is not recorded as failed, or was at the time `t` or later. -/
def FreshSince (t : ℤ) (row : Option FailedBlock) : Prop := ∀ r, row = some r → t ≤ r.lastRetryEpoch

theorem FreshSince.again {row : Option FailedBlock} (ht : t ≤ now) :
    FreshSince t (some (FailedBlock.again now errs row)) := by
  rintro r ⟨⟩
  cases row with
  | none => exact ht
  | some row => exact ht.trans (le_max_left _ _)

/-- A statement keeps this. -/
theorem FreshSince.run (hfresh : FreshSince t (db.failedBlock.lookup h))
    (ht : ∀ now, FailedBlockEvent.time (.statement stmt) = some now → t ≤ now) :
    FreshSince t ((stmt.run tables db).failedBlock.lookup h) := by
  by_cases hremoved : stmt = .deleteFailedBlock h
  · rw [hremoved, lookup_deleteFailedBlock]
    exact fun _ h => nomatch h
  · exact Stmt.run_keeps (fun now _ _ hnow _ => .again (ht now hnow)) hremoved hfresh

/-- A statement that settles the block establishes it. -/
theorem Stmt.Settles.freshSince (hsettles : stmt.Settles h)
    (ht : ∀ now, FailedBlockEvent.time (.statement stmt) = some now → t ≤ now) :
    FreshSince t ((stmt.run tables db).failedBlock.lookup h) := by
  cases stmt with
  | upsertFailedBlocks now errs heights =>
    have hnow := ht now rfl
    exact upsertFailedBlocks_establishes (P := fun _ => True) (fun _ _ => .again hnow)
      (fun _ _ => .again hnow) trivial hsettles
  | deleteFailedBlock height =>
    obtain rfl : height = h := hsettles
    rw [lookup_deleteFailedBlock]
    exact fun _ h => nomatch h
  | updateLatestIndexedBlock | insertTransactions | insertAccounts
  | insertRecentAccountTransactions | insertRefAccountToRecentTx | cleanupZeroRefCount =>
    exact hsettles.elim

end

/-! ## Events one after the other -/

section
variable {R : Type} {tables : RecordTables R} {db : Tables R} {h : ℤ}
  {events events' : List FailedBlockEvent} {e : FailedBlockEvent}

theorem runAll_append :
    runAll tables db (events ++ events') = runAll tables (runAll tables db events) events' :=
  List.foldl_append

theorem retriesFrom_append : retriesFrom tables db (events ++ events') =
    retriesFrom tables db events ++ retriesFrom tables (runAll tables db events) events' := by
  induction events generalizing db with
  | nil => rfl
  | cons e events ih =>
    cases e with
    | statement stmt => exact ih
    | getOneFailedBlock now => exact congrArg (List.cons _) ih

theorem retriesFrom_statements (stmts : List Stmt) :
    retriesFrom tables db (stmts.map .statement) = [] := by
  induction stmts generalizing db with
  | nil => rfl
  | cons stmt stmts ih => exact ih

theorem SettledNext.append (hnext : SettledNext h events) : SettledNext h (events ++ events') := by
  induction events with
  | nil => exact hnext.elim
  | cons e events ih =>
    cases e with
    | statement stmt => exact hnext.imp_right ih
    | getOneFailedBlock now => exact hnext.elim

theorem SettledNext.of_mem {stmts : List Stmt} {stmt : Stmt} (hm : stmt ∈ stmts)
    (hsettles : stmt.Settles h) : SettledNext h (stmts.map .statement) := by
  induction stmts with
  | nil => cases hm
  | cons stmt' stmts ih =>
    rcases List.mem_cons.1 hm with rfl | hm
    · exact .inl hsettles
    · exact .inr (ih hm)

theorem RetriesSettled.append (hsettled : RetriesSettled tables db events)
    (hsettled' : RetriesSettled tables (runAll tables db events) events') :
    RetriesSettled tables db (events ++ events') := by
  induction events generalizing db with
  | nil => exact hsettled'
  | cons e events ih =>
    cases e with
    | statement stmt => exact ih hsettled hsettled'
    | getOneFailedBlock now =>
      exact ⟨ih hsettled.1 hsettled', fun hpos => (hsettled.2 hpos).append⟩

theorem settled_statements (stmts : List Stmt) :
    RetriesSettled tables db (stmts.map .statement) := by
  induction stmts generalizing db with
  | nil => trivial
  | cons stmt stmts ih => exact ih

theorem Clocked.append_singleton (hclock : Clocked events)
    (he : ∀ now, e.time = some now → ∀ t ∈ events.filterMap FailedBlockEvent.time, t ≤ now) :
    Clocked (events ++ [e]) := by
  unfold Clocked
  rw [List.filterMap_append]
  refine List.pairwise_append.2 ⟨hclock, ?_, fun t ht now hnow => ?_⟩
  · rw [List.filterMap_cons]
    split
    · exact List.Pairwise.nil
    · exact List.pairwise_singleton _ _
  · obtain ⟨e', hm, hnow⟩ := List.mem_filterMap.1 hnow
    rw [List.mem_singleton.1 hm] at hnow
    exact he now hnow t ht

end

/-! ## Retries of a block are spaced -/

section
variable {R : Type} {tables : RecordTables R} {db : Tables R} {h t now : ℤ} {stmt : Stmt}
  {events : List FailedBlockEvent} {e : FailedBlockEvent}

theorem NotBefore.tail (hclock : NotBefore t (e :: events)) : NotBefore t events := by
  intro t' ht'
  refine hclock t' ?_
  rw [List.filterMap_cons]
  split
  · exact ht'
  · exact List.mem_cons_of_mem _ ht'

theorem NotBefore.head (hclock : NotBefore t (e :: events)) (he : e.time = some now) : t ≤ now := by
  refine hclock now ?_
  rw [List.filterMap_cons_some he]
  exact List.mem_cons_self

theorem Clocked.tail (hclock : Clocked (e :: events)) : Clocked events := by
  unfold Clocked at hclock ⊢
  rw [List.filterMap_cons] at hclock
  split at hclock
  · exact hclock
  · exact hclock.of_cons

theorem Clocked.notBefore (hclock : Clocked (e :: events)) (he : e.time = some now) :
    NotBefore now events := by
  unfold Clocked at hclock
  rw [List.filterMap_cons_some he] at hclock
  exact (List.pairwise_cons.1 hclock).1

/-- A block is not retried within a minute after it was recorded as failed. -/
theorem FreshSince.retries (hfresh : FreshSince t (db.failedBlock.lookup h))
    (hclock : NotBefore t events) (hpos : 0 < h) :
    ∀ retry ∈ retriesFrom tables db events, retry.2 = h → t + 60 < retry.1 := by
  induction events generalizing db with
  | nil => exact fun _ hm => absurd hm List.not_mem_nil
  | cons e events ih =>
    cases e with
    | statement stmt =>
      exact ih (hfresh.run fun now => hclock.head) hclock.tail
    | getOneFailedBlock now =>
      intro retry hm hretry
      rcases List.mem_cons.1 hm with rfl | hm
      · obtain rfl : selectedBlock db.failedBlock now = h := hretry
        obtain ⟨row, hrow, -, hlast⟩ := selectedBlock_pos hpos
        have ht := hfresh row hrow
        have hgap : retryIndexingFailedBlockGapSeconds = 60 := rfl
        show t + 60 < now
        omega
      · exact ih hfresh hclock.tail retry hm hretry

theorem SettledNext.retries (hsettled : SettledNext h events) (hclock : NotBefore t events)
    (hpos : 0 < h) :
    ∀ retry ∈ retriesFrom tables db events, retry.2 = h → t + 60 < retry.1 := by
  induction events generalizing db with
  | nil => exact hsettled.elim
  | cons e events ih =>
    cases e with
    | statement stmt =>
      rcases hsettled with hsettles | hsettled
      · exact (hsettles.freshSince fun now => hclock.head).retries hclock.tail hpos
      · exact ih hsettled hclock.tail
    | getOneFailedBlock now => exact hsettled.elim

/-- The second of two retries is more than a minute later, if they are of the same block. -/
def Spaced (first second : ℤ × ℤ) : Prop :=
  0 < first.2 → first.2 = second.2 → first.1 + 60 < second.1

/-- **A block is not retried twice within a minute.** -/
theorem retries_spaced (hclock : Clocked events) (hsettled : RetriesSettled tables db events) :
    (retriesFrom tables db events).Pairwise Spaced := by
  induction events generalizing db with
  | nil => exact List.Pairwise.nil
  | cons e events ih =>
    cases e with
    | statement stmt => exact ih hclock.tail hsettled
    | getOneFailedBlock now =>
      refine List.pairwise_cons.2 ⟨fun retry hm hpos heq => ?_, ih hclock.tail hsettled.1⟩
      exact (hsettled.2 hpos).retries (hclock.notBefore rfl) hpos retry hm heq.symm

/-! ## Retries of a block are bounded -/

/-- As often as every block may be retried. -/
abbrev maxRetries : ℕ := retryIndexingFailedBlockMaxRetries.toNat

/-- The block is recorded as failed, with `n` retries or more. -/
def RetriedSince (n : ℤ) (row : Option FailedBlock) : Prop := ∃ r, row = some r ∧ n ≤ r.retryCount

theorem RetriedSince.again {n : ℤ} {errs : List String} {row : Option FailedBlock}
    (hrow : RetriedSince n row) : RetriedSince n (some (FailedBlock.again now errs row)) := by
  obtain ⟨r, rfl, hle⟩ := hrow
  exact ⟨_, rfl, hle.trans (le_add_of_nonneg_right zero_le_one)⟩

/-- One that is recorded as failed again has no more retries left. -/
theorem retriesLeft_run_some {row : FailedBlock} (hrow : db.failedBlock.lookup h = some row) :
    retriesLeft ((stmt.run tables db).failedBlock.lookup h) ≤ retriesLeft (some row) := by
  by_cases hremoved : stmt = .deleteFailedBlock h
  · rw [hremoved, lookup_deleteFailedBlock]
    exact Nat.zero_le _
  · have hretried : RetriedSince row.retryCount ((stmt.run tables db).failedBlock.lookup h) :=
      Stmt.run_keeps (fun _ _ _ _ => RetriedSince.again) hremoved ⟨row, hrow, le_rfl⟩
    obtain ⟨row', hrow', hle⟩ := hretried
    rw [hrow']
    simp only [retriesLeft]
    omega

theorem retriesLeft_run_none (hrow : db.failedBlock.lookup h = none) :
    retriesLeft ((stmt.run tables db).failedBlock.lookup h) ≤ maxRetries := by
  by_cases hremoved : stmt = .deleteFailedBlock h
  · rw [hremoved, lookup_deleteFailedBlock]
    exact Nat.zero_le _
  · refine Stmt.run_keeps (P := fun row => retriesLeft row ≤ maxRetries)
      (fun now errs row _ hrow => ?_) hremoved (hrow ▸ Nat.zero_le _)
    cases row with
    | none => exact le_rfl
    | some row =>
      simp only [retriesLeft, FailedBlock.again] at hrow ⊢
      omega

/-- What a statement adds to the retries left. -/
theorem retriesLeft_run :
    retriesLeft ((stmt.run tables db).failedBlock.lookup h) ≤
      maxRetries * (if h ∉ db.failedBlock ∧ h ∈ (stmt.run tables db).failedBlock then 1 else 0) +
        retriesLeft (db.failedBlock.lookup h) := by
  cases hrow : db.failedBlock.lookup h with
  | some row => exact (retriesLeft_run_some hrow).trans (Nat.le_add_left _ _)
  | none =>
    have hmem : h ∉ db.failedBlock := AList.lookup_eq_none.1 hrow
    split_ifs with hnew
    · have hle : retriesLeft ((stmt.run tables db).failedBlock.lookup h) ≤ maxRetries :=
        retriesLeft_run_none hrow
      omega
    · have hnone : (stmt.run tables db).failedBlock.lookup h = none :=
        AList.lookup_eq_none.2 fun hm => hnew ⟨hmem, hm⟩
      rw [hnone]
      exact Nat.zero_le _

/-- To settle a block that may be retried uses up one of its retries. -/
theorem Stmt.Settles.retriesLeft_lt {row : FailedBlock} (hsettles : stmt.Settles h)
    (hrow : db.failedBlock.lookup h = some row)
    (hleft : row.retryCount < retryIndexingFailedBlockMaxRetries) :
    retriesLeft ((stmt.run tables db).failedBlock.lookup h) < retriesLeft (some row) := by
  cases stmt with
  | upsertFailedBlocks now errs heights =>
    have hagain : ∀ row', row' = some row →
        RetriedSince (row.retryCount + 1) (some (FailedBlock.again now errs row')) := by
      rintro _ rfl
      exact ⟨_, rfl, le_rfl⟩
    have hretried : RetriedSince (row.retryCount + 1)
        ((heights.foldl (upsertFailedBlock now errs) db.failedBlock).lookup h) :=
      upsertFailedBlocks_establishes hagain (fun _ => RetriedSince.again) hrow hsettles
    obtain ⟨row', hrow', hle⟩ := hretried
    show retriesLeft ((heights.foldl (upsertFailedBlock now errs) db.failedBlock).lookup h) < _
    rw [hrow']
    simp only [retriesLeft]
    omega
  | deleteFailedBlock height =>
    obtain rfl : height = h := hsettles
    rw [lookup_deleteFailedBlock]
    simp only [retriesLeft]
    omega
  | updateLatestIndexedBlock | insertTransactions | insertAccounts
  | insertRecentAccountTransactions | insertRefAccountToRecentTx | cleanupZeroRefCount =>
    exact hsettles.elim

/-- How often the block is retried. -/
def retryCount (tables : RecordTables R) (h : ℤ) (db : Tables R) (events : List FailedBlockEvent) :
    ℕ := ((retriesFrom tables db events).map Prod.snd).count h

/-- How often it may be retried. -/
def retryBound (tables : RecordTables R) (h : ℤ) (db : Tables R) (events : List FailedBlockEvent) :
    ℕ := maxRetries * recordings tables h db events + retriesLeft (db.failedBlock.lookup h)

theorem retryBound_statement :
    maxRetries * recordings tables h (stmt.run tables db) events +
        retriesLeft ((stmt.run tables db).failedBlock.lookup h) ≤
      retryBound tables h db (.statement stmt :: events) := by
  simp only [retryBound, recordings, Nat.mul_add]
  rw [Nat.add_comm (maxRetries * ite _ _ _), Nat.add_assoc]
  exact Nat.add_le_add_left retriesLeft_run _

/-- A retry that is to be settled counts already. -/
theorem retryCount_le (hpos : 0 < h) (hsettled : RetriesSettled tables db events) :
    retryCount tables h db events ≤ retryBound tables h db events ∧
      ∀ row, db.failedBlock.lookup h = some row →
        row.retryCount < retryIndexingFailedBlockMaxRetries → SettledNext h events →
        retryCount tables h db events < retryBound tables h db events := by
  induction events generalizing db with
  | nil => exact ⟨Nat.zero_le _, fun _ _ _ hnext => hnext.elim⟩
  | cons e events ih =>
    cases e with
    | statement stmt =>
      have hbound : retryBound tables h (stmt.run tables db) events ≤
          retryBound tables h db (.statement stmt :: events) := retryBound_statement
      obtain ⟨hle, hlt⟩ := ih hsettled
      refine ⟨hle.trans hbound, fun row hrow hleft hnext => ?_⟩
      by_cases hsettles : stmt.Settles h
      · have hless : retriesLeft ((stmt.run tables db).failedBlock.lookup h) <
            retriesLeft (db.failedBlock.lookup h) := hrow ▸ hsettles.retriesLeft_lt hrow hleft
        refine lt_of_le_of_lt hle ?_
        simp only [retryBound, recordings, Nat.mul_add]
        omega
      · refine lt_of_lt_of_le (hlt row ?_ hleft (hnext.resolve_left hsettles)) hbound
        rwa [Stmt.lookup_run hsettles]
    | getOneFailedBlock now =>
      obtain ⟨hle, hlt⟩ := ih hsettled.1
      refine ⟨?_, fun _ _ _ hnext => hnext.elim⟩
      have hcount : retryCount tables h db (.getOneFailedBlock now :: events) =
          retryCount tables h db events +
            if selectedBlock db.failedBlock now = h then 1 else 0 := by
        simp only [retryCount, retriesFrom, List.map_cons, List.count_cons, beq_iff_eq]
      rw [hcount]
      split_ifs with heq
      · subst heq
        obtain ⟨row, hrow, hleft, -⟩ := selectedBlock_pos hpos
        exact hlt row hrow hleft (hsettled.2 hpos)
      · exact hle

/-- **Retries are bounded**: a block is retried at most a hundred times for each time it is recorded
    as failed while it is not. -/
theorem retries_bounded (hpos : 0 < h) (hsettled : RetriesSettled tables db events) :
    retryCount tables h db events ≤ retryBound tables h db events :=
  (retryCount_le hpos hsettled).1

/-! ## Blocks that wait -/

/-- The block may be retried, and the failed blocks above it are in `S`. -/
def WaitsFor (h : ℤ) (S : Finset ℤ) (now : ℤ) (rows : Map ℤ FailedBlock) : Prop :=
  Waits h now rows ∧ ∀ k ∈ rows, h < k → k ∈ S

theorem retries_of_waitsFor {S : Finset ℤ} (hpos : 0 < h)
    (hwaits : AtQueries tables (WaitsFor h S) db events) :
    ∀ k ∈ (retriesFrom tables db events).map Prod.snd, k = h ∨ 0 < k ∧ k ∈ S := by
  induction events generalizing db with
  | nil => exact fun _ hk => absurd hk List.not_mem_nil
  | cons e events ih =>
    cases e with
    | statement stmt => exact ih hwaits
    | getOneFailedBlock now =>
      obtain ⟨⟨hwaitsNow, habove⟩, hwaits⟩ := hwaits
      intro k hk
      rcases List.mem_cons.1 hk with rfl | hk
      · rcases eq_or_lt_of_le hwaitsNow.le_selectedBlock with heq | hlt
        · exact .inl heq.symm
        · have hk := lt_trans hpos hlt
          obtain ⟨row, hrow, -⟩ := selectedBlock_pos hk
          refine .inr ⟨hk, habove _ (AList.lookup_isSome.1 ?_) hlt⟩
          rw [hrow]
          rfl
      · exact ih hwaits k hk

/-- **A block that waits** for others above it is retried at last: they are retried once a minute
    at most, and a hundred times at most. -/
theorem retries_of_waits {S : Finset ℤ} (hpos : 0 < h) (hclock : Clocked events)
    (hsettled : RetriesSettled tables db events)
    (hwaits : AtQueries tables (WaitsFor h S) db events)
    (hnever : h ∉ (retriesFrom tables db events).map Prod.snd) :
    (retriesFrom tables db events).length ≤ ∑ k ∈ S, retryBound tables k db events ∧
      ((∀ retry ∈ retriesFrom tables db events, ∀ retry' ∈ retriesFrom tables db events,
        retry'.1 ≤ retry.1 + 60) → (retriesFrom tables db events).length ≤ S.card) := by
  have hS : ∀ k ∈ (retriesFrom tables db events).map Prod.snd, 0 < k ∧ k ∈ S := fun k hk =>
    (retries_of_waitsFor hpos hwaits k hk).resolve_left fun heq => hnever (heq ▸ hk)
  have hlength : (retriesFrom tables db events).length =
      ((retriesFrom tables db events).map Prod.snd).length := List.length_map .. |>.symm
  constructor
  · have hsum : ∑ k ∈ S, retryCount tables k db events = (retriesFrom tables db events).length := by
      rw [hlength, ← Multiset.coe_card, ← Multiset.sum_count_eq_card fun k hk => (hS k hk).2]
      exact Finset.sum_congr rfl fun k _ => (Multiset.coe_count k _).symm
    rw [← hsum]
    refine Finset.sum_le_sum fun k _ => ?_
    by_cases hk : k ∈ (retriesFrom tables db events).map Prod.snd
    · exact retries_bounded (hS k hk).1 hsettled
    · rw [retryCount, List.count_eq_zero_of_not_mem hk]
      exact Nat.zero_le _
  · intro hminute
    have hnodup : ((retriesFrom tables db events).map Prod.snd).Nodup := by
      refine List.pairwise_map.2 ((retries_spaced hclock hsettled).imp_of_mem ?_)
      intro first second hfirst hsecond hspaced heq
      have hlt := hspaced (hS _ (List.mem_map_of_mem hfirst)).1 heq
      exact absurd (hminute first hfirst second hsecond) (not_le.2 hlt)
    rw [hlength, ← List.toFinset_card_of_nodup hnodup]
    exact Finset.card_le_card fun k hk => (hS k (List.mem_toFinset.1 hk)).2

end

end RollappExplorer
