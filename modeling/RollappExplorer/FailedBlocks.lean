/-
  Recording the heights that a response lists without a block (`InsertOrUpdateFailedBlocks`).

  * `failedBlocksQuery`: the statement, with its placeholders;
  * `runFailedBlocksQuery`: what it does to the rows of `failed_block`, or why it fails, as
    when there is no partition for the chain;
  * `MarkedFailed`: every listed height is recorded, and all other rows are unchanged;
  * `insertOrUpdateFailedBlocks_iff`: when the heights are recorded;
  * `run_upsertFailedBlocks`: the statement `upsertFailedBlocks` of the indexer is this one.
-/
import RollappExplorer.Query
import RollappExplorer.Schema
import RollappExplorer.Sql.Query
import RollappExplorer.Sql.Upsert

namespace RollappExplorer

open Go Sql

/-! ## The statement -/

/-- The text before the rows. -/
def insertIntoFailedBlock : String :=
  "\nINSERT INTO failed_block(chain_id, last_retry_epoch, " ++ "error_messages, height)\nVALUES "

/-- The text after the rows. -/
def onConflictFailedBlock : String :=
  "ON CONFLICT(chain_id, height) DO UPDATE\n" ++
  "SET retry_count = failed_block.retry_count + 1,\n" ++
  "    last_retry_epoch = GREATEST(excluded.last_retry_epoch, " ++
  "failed_block.last_retry_epoch),\n" ++
  "    error_messages = excluded.error_messages || " ++ "failed_block.error_messages\n"

/-- The statement; its first three parameters stand in every row. -/
def failedBlocksQuery (chainId : String) (now : ℤ) (errs : List String)
    (blocksHeight : List ℤ) : Query :=
  let q := insertValues (fun i => [1, 2, 3, i + 4]) (fun height => [.int height]) blocksHeight
    ⟨insertIntoFailedBlock, [.text chainId, .int now, .texts errs]⟩
  ⟨q.text ++ onConflictFailedBlock, q.params⟩

/-- The values of a row, beside its key. -/
structure NewFailedBlock where
  lastRetryEpoch : ℤ
  errorMessages : List String

/-- The rows of the columns `chain_id, last_retry_epoch, error_messages, height`. -/
def newFailedBlocks : List Value → Option (List ((String × ℤ) × NewFailedBlock))
  | [] => some []
  | .text chainId :: .int lastRetryEpoch :: .texts errorMessages :: .int height :: values =>
    (newFailedBlocks values).map (((chainId, height), ⟨lastRetryEpoch, errorMessages⟩) :: ·)
  | _ => none

/-- A new row has the default of `retry_count`; a stored one is updated. -/
def putFailedBlock (stored : Option FailedBlock) (excluded : NewFailedBlock) :
    Except Error FailedBlock :=
  match stored with
  | none => .ok ⟨0, excluded.lastRetryEpoch, excluded.errorMessages⟩
  | some row => do
    return ⟨← smallint (row.retryCount + 1), max excluded.lastRetryEpoch row.lastRetryEpoch,
      excluded.errorMessages ++ row.errorMessages⟩

/-- Execute the statement; it needs rows, and a partition of `failed_block` for each of them.
    There are partitions for the chain ids `partitions`. -/
def runFailedBlocksQuery (partitions : List String) (q : Query)
    (rows : Map (String × ℤ) FailedBlock) : Except Error (Map (String × ℤ) FailedBlock) := do
  failIf (maxParams < q.params.length)
    s!"got {q.params.length} parameters but PostgreSQL only supports {maxParams} parameters"
  match q.values.bind newFailedBlocks with
  | none => .error "there is no such parameter"
  | some [] => .error "syntax error"
  | some news => do
    news.forM fun new => failIf (new.1.1 ∉ partitions)
      "no partition of relation \"failed_block\" found for row"
    upsertAll putFailedBlock news [] rows

/-- `InsertOrUpdateFailedBlocks`, at the time `now`. -/
def insertOrUpdateFailedBlocksAt (partitions : List String) (now : ℤ) (chainId : String)
    (blocksHeight : List ℤ) (optionalReason : Option Error)
    (rows : Map (String × ℤ) FailedBlock) : Except Error (Map (String × ℤ) FailedBlock) :=
  (runFailedBlocksQuery partitions
    (failedBlocksQuery chainId now optionalReason.toList blocksHeight) rows).mapError fun err =>
      wrap err "failed to insert or update failed blocks"

/-! ## What it is for -/

/-- The heights are recorded, and all other rows are unchanged. -/
structure MarkedFailed (now : ℤ) (chainId : String) (blocksHeight : List ℤ) (errs : List String)
    (rows rows' : Map (String × ℤ) FailedBlock) : Prop where
  new : ∀ height ∈ blocksHeight, rows.lookup (chainId, height) = none →
    ∃ row, rows'.lookup (chainId, height) = some row ∧ row.retryCount = 0 ∧
      row.errorMessages = errs
  again : ∀ height ∈ blocksHeight, ∀ old, rows.lookup (chainId, height) = some old →
    ∃ row, rows'.lookup (chainId, height) = some row ∧ row.retryCount = old.retryCount + 1 ∧
      old.lastRetryEpoch ≤ row.lastRetryEpoch ∧ row.errorMessages = errs ++ old.errorMessages
  others : ∀ chainId' height, ¬ (chainId' = chainId ∧ height ∈ blocksHeight) →
    rows'.lookup (chainId', height) = rows.lookup (chainId', height)

/-- The chain has a partition, no height is listed twice, the heights fit one statement, and no
    counter overflows. -/
structure Markable (partitions : List String) (chainId : String) (blocksHeight : List ℤ)
    (rows : Map (String × ℤ) FailedBlock) : Prop where
  partition : chainId ∈ partitions
  nonempty : blocksHeight ≠ []
  nodup : blocksHeight.Nodup
  count : blocksHeight.length ≤ 65532
  counters : ∀ height ∈ blocksHeight, ∀ row, rows.lookup (chainId, height) = some row →
    -32768 ≤ row.retryCount + 1 ∧ row.retryCount + 1 ≤ 32767

section
variable {partitions : List String} {now : ℤ} {chainId : String} {errs : List String}
  {blocksHeight : List ℤ} {rows rows' : Map (String × ℤ) FailedBlock}

theorem failedBlocksQuery_params : (failedBlocksQuery chainId now errs blocksHeight).params =
    .text chainId :: .int now :: .texts errs :: blocksHeight.map .int := by
  show (insertValues _ _ _ _).params = _
  rw [insertValues_params, List.map_eq_flatMap]
  rfl

theorem failedBlocksQuery_placeholders :
    placeholders (failedBlocksQuery chainId now errs blocksHeight).text.toList =
      (List.range blocksHeight.length).flatMap fun i => [1, 2, 3, i + 4] := by
  have hhead : Plain insertIntoFailedBlock := (by decide : Plain _).append (by decide)
  have htail : Plain onConflictFailedBlock :=
    ((((Plain.append (by decide) (by decide)).append (by decide)).append (by decide)).append
      (by decide)).append (by decide)
  have hrows : Reads (insertValues (fun i => [1, 2, 3, i + 4]) (fun height => [Value.int height])
      blocksHeight ⟨insertIntoFailedBlock, [.text chainId, .int now, .texts errs]⟩).text.toList
      ([] ++ (List.range blocksHeight.length).flatMap fun i => [1, 2, 3, i + 4]) :=
    reads_insertValues (reads_of_not_mem hhead)
  have hfirst : onConflictFailedBlock.toList.head? = some 'O' := by
    unfold onConflictFailedBlock
    simp only [String.toList_append, List.append_assoc]
    rfl
  have h := (hrows.append (reads_of_not_mem htail) fun c hc => by
    obtain rfl : 'O' = c := Option.some.inj (hfirst.symm.trans hc)
    rfl) [] (by simp)
  rwa [List.append_nil, List.append_nil, placeholders, List.append_nil,
    ← String.toList_append] at h

/-- The values of the rows, where every row begins with the same three. -/
theorem failedBlocksQuery_values : (failedBlocksQuery chainId now errs blocksHeight).values =
    some (blocksHeight.flatMap fun height =>
      [.text chainId, .int now, .texts errs, .int height]) := by
  have hlookup : ∀ i (hi : i < blocksHeight.length),
      ([1, 2, 3, i + 4].mapM fun n => if n = 0 then none else
        (failedBlocksQuery chainId now errs blocksHeight).params[n - 1]?) =
      some [.text chainId, .int now, .texts errs, .int blocksHeight[i]] := by
    intro i hi
    rw [failedBlocksQuery_params]
    simp [hi]
  have hrows : ∀ n ≤ blocksHeight.length,
      (((List.range n).flatMap fun i => [1, 2, 3, i + 4]).mapM fun n => if n = 0 then none else
        (failedBlocksQuery chainId now errs blocksHeight).params[n - 1]?) =
      some ((blocksHeight.take n).flatMap fun height =>
        [.text chainId, .int now, .texts errs, .int height]) := by
    intro n hn
    induction n with
    | zero => rfl
    | succ n ih =>
      have hlt : n < blocksHeight.length := hn
      rw [List.range_succ, List.flatMap_append, List.mapM_append, ih (by omega),
        List.flatMap_singleton, hlookup n hlt, List.take_succ_eq_append_getElem hlt,
        List.flatMap_append, List.flatMap_singleton]
      rfl
  have h := hrows _ le_rfl
  rw [List.take_length] at h
  rw [Query.values, failedBlocksQuery_placeholders, h]

theorem newFailedBlocks_values : newFailedBlocks (blocksHeight.flatMap fun height =>
      [.text chainId, .int now, .texts errs, .int height]) =
    some (blocksHeight.map fun height => ((chainId, height), ⟨now, errs⟩)) := by
  induction blocksHeight with
  | nil => rfl
  | cons height blocksHeight ih =>
    rw [List.flatMap_cons]
    show (newFailedBlocks (blocksHeight.flatMap _)).map _ = _
    rw [ih]
    rfl

/-- The statement stores the rows of the listed heights. -/
theorem runFailedBlocksQuery_ok_iff :
    runFailedBlocksQuery partitions (failedBlocksQuery chainId now errs blocksHeight) rows =
        .ok rows' ↔
      blocksHeight.length ≤ 65532 ∧ (blocksHeight ≠ [] ∧ chainId ∈ partitions) ∧
      upsertAll putFailedBlock
        (blocksHeight.map fun height => ((chainId, height), ⟨now, errs⟩)) [] rows = .ok rows' := by
  have hcount : (failedBlocksQuery chainId now errs blocksHeight).params.length =
      blocksHeight.length + 3 := by
    rw [failedBlocksQuery_params]
    simp
  unfold runFailedBlocksQuery
  rw [bind_unit_ok_iff, failIf_ok_iff, hcount, failedBlocksQuery_values, Option.bind_some,
    newFailedBlocks_values]
  refine and_congr (by unfold maxParams; omega) ?_
  cases blocksHeight with
  | nil => simp
  | cons height blocksHeight =>
    rw [List.map_cons]
    dsimp only
    rw [bind_unit_ok_iff, forM_ok_iff]
    refine and_congr_left fun _ => ?_
    simp only [ne_eq, List.cons_ne_nil, not_false_eq_true, true_and, List.mem_cons,
      List.mem_map, failIf_ok_iff]
    simp
    exact fun h _ _ => h

theorem putFailedBlock_ok {old row : FailedBlock} {new : NewFailedBlock}
    (h : putFailedBlock (some old) new = .ok row) :
    row = ⟨old.retryCount + 1, max new.lastRetryEpoch old.lastRetryEpoch,
      new.errorMessages ++ old.errorMessages⟩ := by
  obtain ⟨count, hcount, h⟩ := bind_ok_iff.1 h
  obtain rfl := smallint_ok hcount
  exact (Except.ok.inj h).symm

/-- The rows of one chain are those that the indexer sees. -/
theorem upsertAll_failedBlock {rowsOfChain : Map ℤ FailedBlock} {touched : List (String × ℤ)}
    (hview : ∀ height, rowsOfChain.lookup height = rows.lookup (chainId, height))
    (h : upsertAll putFailedBlock
      (blocksHeight.map fun height => ((chainId, height), ⟨now, errs⟩)) touched rows = .ok rows')
    (height : ℤ) : (blocksHeight.foldl (upsertFailedBlock now errs) rowsOfChain).lookup height =
      rows'.lookup (chainId, height) := by
  induction blocksHeight generalizing rows rowsOfChain touched with
  | nil =>
    obtain rfl : rows = rows' := Except.ok.inj h
    exact hview height
  | cons new blocksHeight ih =>
    rw [List.map_cons, upsertAll] at h
    split_ifs at h with htouched
    obtain ⟨row, hput, h⟩ := bind_ok_iff.1 h
    have hrow : upsertFailedBlock now errs rowsOfChain new = rowsOfChain.insert new row := by
      rw [upsertFailedBlock, hview]
      cases hlookup : rows.lookup (chainId, new) with
      | none =>
        rw [hlookup] at hput
        rw [← Except.ok.inj hput]
      | some old =>
        rw [hlookup] at hput
        rw [putFailedBlock_ok hput]
    rw [List.foldl_cons, hrow]
    refine ih (fun height' => ?_) h
    by_cases he : height' = new
    · rw [he, AList.lookup_insert, AList.lookup_insert]
    · have hne : (chainId, height') ≠ (chainId, new) := fun h => he (Prod.mk.inj h).2
      rw [AList.lookup_insert_ne he, AList.lookup_insert_ne hne, hview]

/-- What the statement stores of a height. -/
theorem upserted_height
    (h : Upserted putFailedBlock
      (blocksHeight.map fun height => ((chainId, height), ⟨now, errs⟩)) rows rows')
    {height : ℤ} (hm : height ∈ blocksHeight) :
    ∃ row, putFailedBlock (rows.lookup (chainId, height)) ⟨now, errs⟩ = .ok row ∧
      rows'.lookup (chainId, height) = some row :=
  h.stored _ (List.mem_map_of_mem hm)

theorem MarkedFailed.of_upserted
    (h : Upserted putFailedBlock
      (blocksHeight.map fun height => ((chainId, height), ⟨now, errs⟩)) rows rows') :
    MarkedFailed now chainId blocksHeight errs rows rows' := by
  constructor
  case new =>
    intro height hm hnone
    obtain ⟨row, hput, hrow⟩ := upserted_height h hm
    rw [hnone] at hput
    obtain rfl := Except.ok.inj hput
    exact ⟨_, hrow, rfl, rfl⟩
  case again =>
    intro height hm old hold
    obtain ⟨row, hput, hrow⟩ := upserted_height h hm
    rw [hold] at hput
    obtain rfl := putFailedBlock_ok hput
    exact ⟨_, hrow, rfl, le_max_right _ _, rfl⟩
  case others =>
    intro chainId' height hnot
    refine h.others _ fun hm => hnot ?_
    obtain ⟨new, hm, hk⟩ := List.mem_map.1 hm
    obtain ⟨height', hheight, rfl⟩ := List.mem_map.1 hm
    obtain ⟨rfl, rfl⟩ := Prod.mk.inj hk
    exact ⟨rfl, hheight⟩

/-- A row can be stored iff its counter does not overflow. -/
theorem putFailedBlock_ok_iff {stored : Option FailedBlock} {new : NewFailedBlock} :
    (∃ row, putFailedBlock stored new = .ok row) ↔
      ∀ row, stored = some row → -32768 ≤ row.retryCount + 1 ∧ row.retryCount + 1 ≤ 32767 := by
  cases stored with
  | none =>
    constructor
    · intro _ _ h
      cases h
    · intro _
      exact ⟨_, rfl⟩
  | some old =>
    constructor
    · rintro ⟨row, hrow⟩ _ ⟨⟩
      obtain ⟨count, hcount, -⟩ := bind_ok_iff.1 hrow
      obtain ⟨hrange, -⟩ := bind_unit_ok_iff.1 hcount
      rw [failIf_ok_iff] at hrange
      omega
    · intro h
      have hrange := h old rfl
      rw [putFailedBlock, smallint, failIf, if_neg (by omega)]
      exact ⟨_, rfl⟩

/-- The keys of the new rows are as distinct as the heights. -/
theorem nodup_newFailedBlocks :
    (((blocksHeight.map fun height => ((chainId, height), NewFailedBlock.mk now errs))).map
      Prod.fst).Nodup ↔ blocksHeight.Nodup := by
  rw [List.map_map]
  exact List.nodup_map_iff fun _ _ h => (Prod.mk.inj h).2

/-- The function fails iff the statement does. -/
theorem insertOrUpdateFailedBlocksAt_ok_iff {optionalReason : Option Error} :
    insertOrUpdateFailedBlocksAt partitions now chainId blocksHeight optionalReason rows =
        .ok rows' ↔
      blocksHeight.length ≤ 65532 ∧ (blocksHeight ≠ [] ∧ chainId ∈ partitions) ∧
      upsertAll putFailedBlock (blocksHeight.map fun height =>
        ((chainId, height), ⟨now, optionalReason.toList⟩)) [] rows = .ok rows' := by
  rw [insertOrUpdateFailedBlocksAt, mapError_ok_iff, runFailedBlocksQuery_ok_iff]

/-- The statement marks the heights whenever it succeeds. -/
theorem MarkedFailed.of_ok {optionalReason : Option Error}
    (h : insertOrUpdateFailedBlocksAt partitions now chainId blocksHeight optionalReason rows =
      .ok rows') : MarkedFailed now chainId blocksHeight optionalReason.toList rows rows' :=
  .of_upserted (upsertAll_spec (insertOrUpdateFailedBlocksAt_ok_iff.1 h).2.2).2.2

end

/-- **The heights are recorded** iff the chain has a partition, none is listed twice, they fit one
    statement, and no counter overflows. -/
theorem insertOrUpdateFailedBlocks_iff (partitions : List String) (now : ℤ) (chainId : String)
    (blocksHeight : List ℤ) (optionalReason : Option Error)
    (rows : Map (String × ℤ) FailedBlock) :
    (∃ rows', insertOrUpdateFailedBlocksAt partitions now chainId blocksHeight optionalReason
        rows = .ok rows' ∧
        MarkedFailed now chainId blocksHeight optionalReason.toList rows rows') ↔
      Markable partitions chainId blocksHeight rows := by
  constructor
  · rintro ⟨rows', h, -⟩
    obtain ⟨hcount, ⟨hnonempty, hpartition⟩, h⟩ := insertOrUpdateFailedBlocksAt_ok_iff.1 h
    obtain ⟨hnodup, -, hupserted⟩ := upsertAll_spec h
    refine ⟨hpartition, hnonempty, nodup_newFailedBlocks.1 hnodup, hcount, fun height hm => ?_⟩
    obtain ⟨row, hput, -⟩ := upserted_height hupserted hm
    exact putFailedBlock_ok_iff.1 ⟨row, hput⟩
  · intro h
    have hkeys : ((blocksHeight.map fun height =>
        ((chainId, height), NewFailedBlock.mk now optionalReason.toList)).map Prod.fst).Nodup :=
      nodup_newFailedBlocks.2 h.nodup
    have hput : ∀ new ∈ blocksHeight.map fun height =>
        ((chainId, height), NewFailedBlock.mk now optionalReason.toList),
        ∃ row, putFailedBlock (rows.lookup new.1) new.2 = .ok row := by
      intro new hm
      obtain ⟨height, hheight, rfl⟩ := List.mem_map.1 hm
      exact putFailedBlock_ok_iff.2 (h.counters height hheight)
    obtain ⟨rows', hok⟩ := exists_upsertAll hkeys (fun _ _ => List.not_mem_nil) hput
    have hok' := insertOrUpdateFailedBlocksAt_ok_iff.2 ⟨h.count, ⟨h.nonempty, h.partition⟩, hok⟩
    exact ⟨rows', hok', .of_ok hok'⟩

/-! ## A height listed twice -/

/-- A response that lists a height twice. -/
def responseWithRepeatedHeight : ResponseBeTransactionsInBlockRange where
  chainId := "rollappevm_1234-1"
  blocks := ∅
  missingBlocks := [5, 5]
  errorBlocks := []

/-- A statement that stores a height twice fails. -/
theorem not_insertOrUpdateFailedBlocks :
    ¬ ∀ (sdk : Sdk) (o : MapOrder) (chainId : String) (now f t : ℤ)
        (r : ResponseBeTransactionsInBlockRange)
        (res : TransformedResponseBeTransactionsInBlockRange),
      beTransactionsInBlockRange sdk o chainId now f t r = .ok res →
      ∀ blocksHeight, blocksHeight = res.missingBlocks ∨ blocksHeight = res.errorBlocks →
      blocksHeight ≠ [] →
      ∀ partitions : List String, chainId ∈ partitions →
      ∀ (now : ℤ) (optionalReason : Option Error) (rows : Map (String × ℤ) FailedBlock),
      ∃ rows', insertOrUpdateFailedBlocksAt partitions now chainId blocksHeight optionalReason
          rows = .ok rows' ∧
        MarkedFailed now chainId blocksHeight optionalReason.toList rows rows' := by
  intro h
  have hres : beTransactionsInBlockRange bech32Sdk default "rollappevm_1234-1" 1720000000 1 10
      responseWithRepeatedHeight = .ok ⟨[], [5, 5], []⟩ := rfl
  obtain ⟨rows', hok, -⟩ := h bech32Sdk default "rollappevm_1234-1" 1720000000 1 10
    responseWithRepeatedHeight ⟨[], [5, 5], []⟩ hres [5, 5] (.inl rfl) (by simp)
    ["rollappevm_1234-1"] (List.mem_singleton_self _) 1720000000 (some "rpc marks missing") ∅
  obtain ⟨hnodup, -⟩ := upsertAll_spec (insertOrUpdateFailedBlocksAt_ok_iff.1 hok).2.2
  exact absurd (nodup_newFailedBlocks.1 hnodup) (by decide)

/-! ## The statement of the indexer -/

/-- **The indexer's statement** may be carried out, and has the rows that this one stores. -/
theorem run_upsertFailedBlocks {R : Type} (tables : RecordTables R) {partitions : List String}
    {now : ℤ} {chainId : String} {blocksHeight : List ℤ} {optionalReason : Option Error}
    {rows rows' : Map (String × ℤ) FailedBlock} {db : Tables R}
    (hview : ∀ height, db.failedBlock.lookup height = rows.lookup (chainId, height))
    (h : insertOrUpdateFailedBlocksAt partitions now chainId blocksHeight optionalReason rows =
      .ok rows') :
    (Stmt.upsertFailedBlocks now optionalReason.toList blocksHeight).Executable ∧
      ∀ height, ((Stmt.upsertFailedBlocks now optionalReason.toList blocksHeight).run tables
        db).failedBlock.lookup height = rows'.lookup (chainId, height) := by
  obtain ⟨-, ⟨hnonempty, -⟩, hok⟩ := insertOrUpdateFailedBlocksAt_ok_iff.1 h
  have hnodup := nodup_newFailedBlocks.1 (upsertAll_spec hok).1
  exact ⟨⟨hnonempty, hnodup⟩, upsertAll_failedBlock hview hok⟩

end RollappExplorer
