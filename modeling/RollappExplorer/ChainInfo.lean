/-
  The table `chain_info` (`database/postgres/chain_info.go`, `database/postgres/block.go`,
  `database/types/record_chain_info.go`).

  The indexers of all chains write to it: each registers its chain, stores the URLs that respond,
  and moves the latest indexed block on.

  * `RecordChainInfo`: the record of a registration and its validation;
  * `ChainInfoStmt.exec`: what a statement does to the table;
  * `ChainInfoStmt.mem_after_iff`: the rows after a statement;
  * `chainInfo_history`: what each row is after any statements of all indexers.
-/
import RollappExplorer.TransactionSearch

namespace RollappExplorer

open Go Sql

/-! ## Records -/

structure RecordChainInfo where
  chainId : String
  name : String
  chainType : String
  bech32 : String
  denoms : String
  beJsonRpcUrls : List String
  latestIndexedBlock : ℤ

/-- The record of a chain; `marshal` is `json.Marshal` of a map of strings. -/
def newRecordChainInfoForInsert (marshal : Map String String → String)
    (chainId name chainType : String) (bech32 denoms : Map String String)
    (activeBeJsonRpcUrl : String) : RecordChainInfo where
  chainId := normalizeChainId chainId
  name := normalizeChainId name
  chainType := toLower chainType
  bech32 := if bech32.pairs.length > 0 then marshal bech32 else "\x7b\x7d"
  denoms := if denoms.pairs.length > 0 then marshal denoms else "\x7b\x7d"
  beJsonRpcUrls := [activeBeJsonRpcUrl]
  latestIndexedBlock := 0

def RecordChainInfo.validateBasic (r : RecordChainInfo) : Except Error Unit := do
  failIf (toLower r.chainId ≠ r.chainId)
    s!"chain id must be normalized, expected {toLower r.chainId}, got {r.chainId}"
  failIf (r.chainId = "") "chain id cannot be empty"
  failIf (toLower r.name ≠ r.name)
    s!"name must be normalized, expected {toLower r.name}, got {r.name}"
  failIf (r.name = "") "chain name cannot be empty"
  failIf (toLower r.chainType ≠ r.chainType)
    s!"chain type must be normalized, expected {toLower r.chainType}, got {r.chainType}"
  failIf (r.chainType = "") "chain type cannot be empty"
  failIf (r.bech32 = "") "bech32 information cannot be empty"
  failIf (r.denoms = "") "denoms information cannot be empty"
  failIf (r.latestIndexedBlock < 0) "latest indexed block cannot be negative"

/-- The record of a chain that can be registered. -/
theorem newRecordChainInfoForInsert_valid_iff {marshal : Map String String → String}
    (hmarshal : ∀ m, marshal m ≠ "") {chainId name chainType : String}
    {bech32 denoms : Map String String} {activeBeJsonRpcUrl : String} :
    (newRecordChainInfoForInsert marshal chainId name chainType bech32 denoms
      activeBeJsonRpcUrl).validateBasic = .ok () ↔
        normalizeChainId chainId ≠ "" ∧ normalizeChainId name ≠ "" ∧ chainType ≠ "" := by
  have hlower : ∀ s, toLower (toLower s) = toLower s := by
    intro s
    apply String.toList_injective
    simp [toLowerRune_idem]
  have hempty : toLower chainType = "" ↔ chainType = "" := by
    rw [← String.toList_inj, toList_toLower]
    simp
  have hjson : ∀ m : Map String String,
      (if m.pairs.length > 0 then marshal m else "\x7b\x7d") ≠ "" := by
    intro m
    split_ifs
    · exact hmarshal m
    · decide
  simp [newRecordChainInfoForInsert, RecordChainInfo.validateBasic, normalizeChainId, hlower,
    hempty, hjson]

/-! ## The table -/

/-- A row of `chain_info`. -/
structure ChainTableRow extends ChainRow where
  chainType : String
  bech32 : String
  denoms : String
  beJsonRpcUrls : List String
  increasedLatestIndexedBlockAt : ℤ
  keepRecentAccountTxCount : Option ℤ
  keepWeeksOfRecentTxs : Option ℤ

def ChainTableRow.key (row : ChainTableRow) : String := row.chainId

/-- The columns that no indexer writes. -/
structure OperatorColumns where
  postponed : Option Bool
  expiryAtEpoch : Option ℤ
  keepRecentAccountTxCount : Option ℤ
  keepWeeksOfRecentTxs : Option ℤ

def ChainTableRow.operatorColumns (row : ChainTableRow) : OperatorColumns :=
  ⟨row.postponed, row.expiryAtEpoch, row.keepRecentAccountTxCount, row.keepWeeksOfRecentTxs⟩

def ChainTableRow.setOperatorColumns (columns : OperatorColumns) (row : ChainTableRow) :
    ChainTableRow :=
  { row with
    postponed := columns.postponed
    expiryAtEpoch := columns.expiryAtEpoch
    keepRecentAccountTxCount := columns.keepRecentAccountTxCount
    keepWeeksOfRecentTxs := columns.keepWeeksOfRecentTxs }

/-- The columns that an insertion leaves out have their defaults. -/
def RecordChainInfo.row (r : RecordChainInfo) : ChainTableRow where
  chainId := r.chainId
  name := r.name
  chainType := r.chainType
  bech32 := r.bech32
  denoms := r.denoms
  beJsonRpcUrls := r.beJsonRpcUrls
  latestIndexedBlock := 0
  increasedLatestIndexedBlockAt := 0
  postponed := none
  keepRecentAccountTxCount := none
  keepWeeksOfRecentTxs := none
  expiryAtEpoch := none

/-- `ON CONFLICT(chain_id) DO UPDATE` -/
def ChainTableRow.onConflict (row : ChainTableRow) (excluded : RecordChainInfo) : ChainTableRow :=
  { row with
    chainType := excluded.chainType
    bech32 := excluded.bech32
    denoms := excluded.denoms
    beJsonRpcUrls := excluded.beJsonRpcUrls }

abbrev ChainInfoTable := Table ChainTableRow.key

/-! ## Statements -/

/-- The statements of the indexers, and the change of the other columns by an operator. -/
inductive ChainInfoStmt where
  | insertOrUpdate (chainInfo : RecordChainInfo)
  | updateBeJsonRpcUrls (chainId : String) (urls : List String)
  | setLatestIndexedBlock (chainId : String) (height now : ℤ)
  | operate (chainId : String) (columns : OperatorColumns)

/-- `InsertOrUpdateRecordChainInfo`; the name of a new chain must not be taken. -/
def insertOrUpdateRecordChainInfo (chainInfo : RecordChainInfo) (t : ChainInfoTable) :
    Except Error ChainInfoTable := do
  chainInfo.validateBasic.mapError fun err =>
    wrap err "record chain info does not pass basic validation"
  if t.Has chainInfo.chainId then
    t.update chainInfo.chainId fun row => .ok (row.onConflict chainInfo)
  else do
    failIf (chainInfo.name ∈ t.rows.map (·.name))
      "duplicate key value violates unique constraint chain_info_unique_chain_name"
    return t.insert chainInfo.row

/-- `UpdateBeJsonRpcUrlsIfExists` -/
def updateBeJsonRpcUrlsIfExists (chainId : String) (urls : List String) (t : ChainInfoTable) :
    Except Error ChainInfoTable :=
  t.update chainId fun row => .ok { row with beJsonRpcUrls := urls }

/-- `UPDATE chain_info SET … WHERE chain_id = … AND latest_indexed_block < …` -/
def ChainTableRow.setLatestIndexedBlock (height now : ℤ) (row : ChainTableRow) : ChainTableRow :=
  if row.latestIndexedBlock < height then
    { row with latestIndexedBlock := height, increasedLatestIndexedBlockAt := now }
  else row

/-- `SetLatestIndexedBlock`, at the time `now`. -/
def setLatestIndexedBlockOf (chainId : String) (height now : ℤ) (t : ChainInfoTable) :
    Except Error ChainInfoTable :=
  t.update chainId fun row => .ok (row.setLatestIndexedBlock height now)

def ChainInfoStmt.exec (t : ChainInfoTable) : ChainInfoStmt → Except Error ChainInfoTable
  | .insertOrUpdate chainInfo => insertOrUpdateRecordChainInfo chainInfo t
  | .updateBeJsonRpcUrls chainId urls => updateBeJsonRpcUrlsIfExists chainId urls t
  | .setLatestIndexedBlock chainId height now => setLatestIndexedBlockOf chainId height now t
  | .operate chainId columns => t.update chainId fun row => .ok (row.setOperatorColumns columns)

/-- A statement that fails changes nothing. -/
def ChainInfoStmt.after (t : ChainInfoTable) (stmt : ChainInfoStmt) : ChainInfoTable :=
  match stmt.exec t with
  | .ok t' => t'
  | .error _ => t

/-- The table after statements of all indexers. -/
def chainInfoAfter (stmts : List ChainInfoStmt) : ChainInfoTable :=
  stmts.foldl ChainInfoStmt.after (.empty _)

/-! ## Rows -/

/-- What a statement does to a row. -/
def ChainTableRow.after (row : ChainTableRow) : ChainInfoStmt → ChainTableRow
  | .insertOrUpdate chainInfo =>
    if chainInfo.validateBasic = .ok () ∧ row.chainId = chainInfo.chainId then
      row.onConflict chainInfo
    else row
  | .updateBeJsonRpcUrls chainId urls =>
    if row.chainId = chainId then { row with beJsonRpcUrls := urls } else row
  | .setLatestIndexedBlock chainId height now =>
    if row.chainId = chainId then row.setLatestIndexedBlock height now else row
  | .operate chainId columns =>
    if row.chainId = chainId then row.setOperatorColumns columns else row

/-- The statement inserts a row: its name is not taken. -/
structure ChainInfoStmt.Inserts (t : ChainInfoTable) (stmt : ChainInfoStmt)
    (chainInfo : RecordChainInfo) : Prop where
  stmt : stmt = .insertOrUpdate chainInfo
  valid : chainInfo.validateBasic = .ok ()
  chainId : ¬ t.Has chainInfo.chainId
  name : ∀ row ∈ t, row.name ≠ chainInfo.name

section
variable {t : ChainInfoTable} {stmt : ChainInfoStmt} {row : ChainTableRow}

theorem ChainTableRow.setLatestIndexedBlock_key (height now : ℤ) (row : ChainTableRow) :
    (row.setLatestIndexedBlock height now).key = row.key := by
  unfold setLatestIndexedBlock
  split_ifs <;> rfl

theorem ChainTableRow.after_key (row : ChainTableRow) (stmt : ChainInfoStmt) :
    (row.after stmt).key = row.key := by
  cases stmt with
  | insertOrUpdate chainInfo =>
    simp only [after]
    split_ifs <;> rfl
  | updateBeJsonRpcUrls chainId urls =>
    simp only [after]
    split_ifs <;> rfl
  | setLatestIndexedBlock chainId height now =>
    simp only [after]
    split_ifs
    · exact setLatestIndexedBlock_key height now row
    · rfl
  | operate chainId columns =>
    simp only [after]
    split_ifs <;> rfl

theorem ChainTableRow.after_name (row : ChainTableRow) (stmt : ChainInfoStmt) :
    (row.after stmt).name = row.name := by
  cases stmt with
  | insertOrUpdate chainInfo =>
    simp only [after]
    split_ifs <;> rfl
  | updateBeJsonRpcUrls chainId urls =>
    simp only [after]
    split_ifs <;> rfl
  | setLatestIndexedBlock chainId height now =>
    simp only [after, setLatestIndexedBlock]
    split_ifs <;> rfl
  | operate chainId columns =>
    simp only [after]
    split_ifs <;> rfl

/-- The rows after a registration. -/
theorem mem_insertOrUpdate_iff {chainInfo : RecordChainInfo} :
    row ∈ ChainInfoStmt.after t (.insertOrUpdate chainInfo) ↔
      (∃ row₀ ∈ t, row = row₀.after (.insertOrUpdate chainInfo)) ∨
      (ChainInfoStmt.Inserts t (.insertOrUpdate chainInfo) chainInfo ∧ row = chainInfo.row) := by
  have hinserts : ChainInfoStmt.Inserts t (.insertOrUpdate chainInfo) chainInfo ↔
      chainInfo.validateBasic = .ok () ∧ ¬ t.Has chainInfo.chainId ∧
        ∀ row ∈ t, row.name ≠ chainInfo.name :=
    ⟨fun h => ⟨h.valid, h.chainId, h.name⟩, fun h => ⟨rfl, h.1, h.2.1, h.2.2⟩⟩
  rw [hinserts]
  simp only [ChainInfoStmt.after, ChainInfoStmt.exec, insertOrUpdateRecordChainInfo]
  cases hvalid : chainInfo.validateBasic with
  | error err =>
    simp [Except.mapError, ChainTableRow.after, hvalid, bind, Except.bind]
  | ok u =>
    by_cases hhas : t.Has chainInfo.chainId
    · obtain ⟨t', he, hmem⟩ := Table.update_total (ε := Error)
        (g := fun row => ChainTableRow.onConflict row chainInfo) (fun _ => rfl) t chainInfo.chainId
      have hafter : ∀ row₀ : ChainTableRow, row₀.after (.insertOrUpdate chainInfo) =
          if row₀.key = chainInfo.chainId then row₀.onConflict chainInfo else row₀ := by
        intro row₀
        by_cases hk : row₀.key = chainInfo.chainId
        · rw [if_pos hk]
          exact if_pos ⟨hvalid, hk⟩
        · rw [if_neg hk]
          exact if_neg fun h => hk h.2
      simp only [Except.mapError, bind, Except.bind, if_pos hhas, he, hmem, hafter]
      exact ⟨.inl, fun h => h.elim id fun h => absurd hhas h.1.2.1⟩
    · have hafter : ∀ row₀ ∈ t, row₀.after (.insertOrUpdate chainInfo) = row₀ := by
        intro row₀ hrow
        have hne : row₀.chainId ≠ chainInfo.chainId := fun h => hhas (h ▸ Table.has_of_mem hrow)
        simp [ChainTableRow.after, hne]
      have hold : (∃ row₀ ∈ t, row = row₀.after (.insertOrUpdate chainInfo)) ↔ row ∈ t := by
        constructor
        · rintro ⟨row₀, hrow, rfl⟩
          rwa [hafter row₀ hrow]
        · exact fun hrow => ⟨row, hrow, (hafter row hrow).symm⟩
      rw [hold]
      by_cases hname : chainInfo.name ∈ t.rows.map (·.name)
      · obtain ⟨row₀, hrow₀, hn⟩ := List.mem_map.1 hname
        simp only [Except.mapError, bind, Except.bind, if_neg hhas, failIf, if_pos hname]
        exact ⟨.inl, fun h => h.elim id fun h => absurd hn (h.1.2.2 row₀ hrow₀)⟩
      · have hfree : ∀ row ∈ t, row.name ≠ chainInfo.name := fun row₀ hrow hn =>
          hname (List.mem_map.2 ⟨row₀, hrow, hn⟩)
        simp only [Except.mapError, bind, Except.bind, if_neg hhas, failIf, if_neg hname, pure,
          Except.pure, Table.mem_insert]
        exact or_congr_right ⟨fun h => ⟨⟨trivial, hhas, hfree⟩, h.1⟩, fun h => ⟨h.2, hhas⟩⟩

/-- The rows after a statement. -/
theorem ChainInfoStmt.mem_after_iff : row ∈ stmt.after t ↔
    (∃ row₀ ∈ t, row = row₀.after stmt) ∨
      ∃ chainInfo, stmt.Inserts t chainInfo ∧ row = chainInfo.row := by
  cases stmt with
  | insertOrUpdate chainInfo =>
    rw [mem_insertOrUpdate_iff]
    refine or_congr_right ⟨fun h => ⟨chainInfo, h⟩, ?_⟩
    rintro ⟨chainInfo', hins, rfl⟩
    obtain rfl : chainInfo = chainInfo' := ChainInfoStmt.insertOrUpdate.inj hins.stmt
    exact ⟨hins, rfl⟩
  | updateBeJsonRpcUrls chainId urls =>
    obtain ⟨t', he, hmem⟩ := Table.update_total (ε := Error)
      (g := fun row : ChainTableRow => { row with beJsonRpcUrls := urls }) (fun _ => rfl) t chainId
    simp only [ChainInfoStmt.after, ChainInfoStmt.exec, updateBeJsonRpcUrlsIfExists, he, hmem]
    exact ⟨.inl, fun h => h.elim id fun ⟨_, hins, _⟩ => nomatch hins.stmt⟩
  | setLatestIndexedBlock chainId height now =>
    obtain ⟨t', he, hmem⟩ := Table.update_total (ε := Error)
      (ChainTableRow.setLatestIndexedBlock_key height now) t chainId
    simp only [ChainInfoStmt.after, ChainInfoStmt.exec, setLatestIndexedBlockOf, he, hmem]
    exact ⟨.inl, fun h => h.elim id fun ⟨_, hins, _⟩ => nomatch hins.stmt⟩
  | operate chainId columns =>
    obtain ⟨t', he, hmem⟩ := Table.update_total (ε := Error)
      (g := ChainTableRow.setOperatorColumns columns) (fun _ => rfl) t chainId
    simp only [ChainInfoStmt.after, ChainInfoStmt.exec, he, hmem]
    exact ⟨.inl, fun h => h.elim id fun ⟨_, hins, _⟩ => nomatch hins.stmt⟩

end

/-! ## The history of a row -/

/-- The records with which a chain is registered again. -/
def recordsOf (chainId : String) (stmts : List ChainInfoStmt) : List RecordChainInfo :=
  stmts.filterMap fun
    | .insertOrUpdate chainInfo =>
      if chainInfo.validateBasic = .ok () ∧ chainId = chainInfo.chainId then some chainInfo
      else none
    | _ => none

/-- The lists of URLs that are stored for a chain. -/
def urlsOf (chainId : String) (stmts : List ChainInfoStmt) : List (List String) :=
  stmts.filterMap fun
    | .insertOrUpdate chainInfo =>
      if chainInfo.validateBasic = .ok () ∧ chainId = chainInfo.chainId then
        some chainInfo.beJsonRpcUrls
      else none
    | .updateBeJsonRpcUrls chainId' urls => if chainId = chainId' then some urls else none
    | _ => none

/-- The heights that are set for a chain, with the times. -/
def heightsOf (chainId : String) (stmts : List ChainInfoStmt) : List (ℤ × ℤ) :=
  stmts.filterMap fun
    | .setLatestIndexedBlock chainId' height now =>
      if chainId = chainId' then some (height, now) else none
    | _ => none

/-- What an operator sets for a chain. -/
def operatedOf (chainId : String) (stmts : List ChainInfoStmt) : List OperatorColumns :=
  stmts.filterMap fun
    | .operate chainId' columns => if chainId = chainId' then some columns else none
    | _ => none

/-- The greatest of the heights, and the time when it was first set. -/
structure FirstGreatest (heights : List (ℤ × ℤ)) (latest at' : ℤ) : Prop where
  le : ∀ x ∈ heights, x.1 ≤ latest
  first : (latest = 0 ∧ at' = 0) ∨ 0 < latest ∧ ∃ before after,
    heights = before ++ (latest, at') :: after ∧ ∀ x ∈ before, x.1 < latest

/-- What the row has of a record. -/
structure ChainTableRow.Describes (row : ChainTableRow) (record : RecordChainInfo) : Prop where
  chainType : row.chainType = record.chainType
  bech32 : row.bech32 = record.bech32
  denoms : row.denoms = record.denoms

/-- The row of a chain that was registered with `record`, when `stmts` came later. -/
structure ChainTableRow.History (record : RecordChainInfo) (stmts : List ChainInfoStmt)
    (row : ChainTableRow) : Prop where
  chainId : row.chainId = record.chainId
  name : row.name = record.name
  config : row.Describes ((recordsOf row.chainId stmts).getLastD record)
  urls : row.beJsonRpcUrls = (urlsOf row.chainId stmts).getLastD record.beJsonRpcUrls
  latest : FirstGreatest (heightsOf row.chainId stmts) row.latestIndexedBlock
    row.increasedLatestIndexedBlockAt
  operator : row.operatorColumns =
    (operatedOf row.chainId stmts).getLastD ⟨none, none, none, none⟩

theorem FirstGreatest.nil : FirstGreatest [] 0 0 := ⟨nofun, .inl ⟨rfl, rfl⟩⟩

/-- A height that is not greater. -/
theorem FirstGreatest.snoc_le {heights : List (ℤ × ℤ)} {latest at' : ℤ}
    (h : FirstGreatest heights latest at') {x : ℤ × ℤ} (hx : x.1 ≤ latest) :
    FirstGreatest (heights ++ [x]) latest at' := by
  refine ⟨List.forall_mem_append.2 ⟨h.le, List.forall_mem_singleton.2 hx⟩, h.first.imp_right ?_⟩
  rintro ⟨hpos, before, after, rfl, hlt⟩
  exact ⟨hpos, before, after ++ [x], by rw [List.append_assoc, List.cons_append], hlt⟩

/-- A greater height. -/
theorem FirstGreatest.snoc_lt {heights : List (ℤ × ℤ)} {latest at' : ℤ}
    (h : FirstGreatest heights latest at') {x : ℤ × ℤ} (hx : latest < x.1) :
    FirstGreatest (heights ++ [x]) x.1 x.2 := by
  have hnonneg : 0 ≤ latest := by
    rcases h.first with ⟨rfl, -⟩ | ⟨hpos, -⟩
    · exact le_refl 0
    · exact hpos.le
  refine ⟨List.forall_mem_append.2 ⟨fun y hy => (h.le y hy).trans hx.le,
    List.forall_mem_singleton.2 (le_refl _)⟩, .inr ⟨hnonneg.trans_lt hx, heights, [], rfl, ?_⟩⟩
  exact fun y hy => (h.le y hy).trans_lt hx

/-- The row when it is inserted. -/
theorem ChainTableRow.History.row (record : RecordChainInfo) : History record [] record.row :=
  ⟨rfl, rfl, ⟨rfl, rfl, rfl⟩, rfl, .nil, rfl⟩

theorem recordsOf_append (chainId : String) (stmts stmts' : List ChainInfoStmt) :
    recordsOf chainId (stmts ++ stmts') = recordsOf chainId stmts ++ recordsOf chainId stmts' :=
  List.filterMap_append

theorem urlsOf_append (chainId : String) (stmts stmts' : List ChainInfoStmt) :
    urlsOf chainId (stmts ++ stmts') = urlsOf chainId stmts ++ urlsOf chainId stmts' :=
  List.filterMap_append

theorem heightsOf_append (chainId : String) (stmts stmts' : List ChainInfoStmt) :
    heightsOf chainId (stmts ++ stmts') = heightsOf chainId stmts ++ heightsOf chainId stmts' :=
  List.filterMap_append

theorem operatedOf_append (chainId : String) (stmts stmts' : List ChainInfoStmt) :
    operatedOf chainId (stmts ++ stmts') = operatedOf chainId stmts ++ operatedOf chainId stmts' :=
  List.filterMap_append

section
variable {record : RecordChainInfo} {stmts : List ChainInfoStmt} {row : ChainTableRow}

/-- Only a registration changes what the row has of a record. -/
theorem ChainTableRow.Describes.after
    (h : row.Describes ((recordsOf row.chainId stmts).getLastD record)) (stmt : ChainInfoStmt) :
    (row.after stmt).Describes ((recordsOf row.chainId (stmts ++ [stmt])).getLastD record) := by
  rw [recordsOf_append]
  cases stmt with
  | insertOrUpdate chainInfo =>
    by_cases hc : chainInfo.validateBasic = .ok () ∧ row.chainId = chainInfo.chainId
    · have hr : recordsOf row.chainId [.insertOrUpdate chainInfo] = [chainInfo] := by
        simp [recordsOf, hc]
      rw [hr, List.getLastD_concat, ChainTableRow.after, if_pos hc]
      exact ⟨rfl, rfl, rfl⟩
    · have hr : recordsOf row.chainId [.insertOrUpdate chainInfo] = [] := by
        simp [recordsOf, hc]
      rwa [hr, List.append_nil, ChainTableRow.after, if_neg hc]
  | updateBeJsonRpcUrls chainId urls =>
    rw [show recordsOf row.chainId [.updateBeJsonRpcUrls chainId urls] = [] from rfl,
      List.append_nil, ChainTableRow.after]
    split_ifs
    · exact ⟨h.chainType, h.bech32, h.denoms⟩
    · exact h
  | setLatestIndexedBlock chainId height now =>
    rw [show recordsOf row.chainId [.setLatestIndexedBlock chainId height now] = [] from rfl,
      List.append_nil, ChainTableRow.after, ChainTableRow.setLatestIndexedBlock]
    split_ifs
    · exact ⟨h.chainType, h.bech32, h.denoms⟩
    · exact h
    · exact h
  | operate chainId columns =>
    rw [show recordsOf row.chainId [.operate chainId columns] = [] from rfl, List.append_nil,
      ChainTableRow.after]
    split_ifs
    · exact ⟨h.chainType, h.bech32, h.denoms⟩
    · exact h

/-- The URLs are those that were stored last. -/
theorem ChainTableRow.after_urls (record : RecordChainInfo)
    (h : row.beJsonRpcUrls = (urlsOf row.chainId stmts).getLastD record.beJsonRpcUrls)
    (stmt : ChainInfoStmt) : (row.after stmt).beJsonRpcUrls =
      (urlsOf row.chainId (stmts ++ [stmt])).getLastD record.beJsonRpcUrls := by
  rw [urlsOf_append]
  cases stmt with
  | insertOrUpdate chainInfo =>
    by_cases hc : chainInfo.validateBasic = .ok () ∧ row.chainId = chainInfo.chainId
    · have hu : urlsOf row.chainId [.insertOrUpdate chainInfo] = [chainInfo.beJsonRpcUrls] := by
        simp [urlsOf, hc]
      rw [hu, List.getLastD_concat, ChainTableRow.after, if_pos hc]
      rfl
    · have hu : urlsOf row.chainId [.insertOrUpdate chainInfo] = [] := by
        simp [urlsOf, hc]
      rwa [hu, List.append_nil, ChainTableRow.after, if_neg hc]
  | updateBeJsonRpcUrls chainId urls =>
    by_cases hc : row.chainId = chainId
    · have hu : urlsOf row.chainId [.updateBeJsonRpcUrls chainId urls] = [urls] := by
        simp [urlsOf, hc]
      rw [hu, List.getLastD_concat, ChainTableRow.after, if_pos hc]
    · have hu : urlsOf row.chainId [.updateBeJsonRpcUrls chainId urls] = [] := by
        simp [urlsOf, hc]
      rwa [hu, List.append_nil, ChainTableRow.after, if_neg hc]
  | setLatestIndexedBlock chainId height now =>
    rw [show urlsOf row.chainId [.setLatestIndexedBlock chainId height now] = [] from rfl,
      List.append_nil, ← h, ChainTableRow.after, ChainTableRow.setLatestIndexedBlock]
    split_ifs <;> rfl
  | operate chainId columns =>
    rw [show urlsOf row.chainId [.operate chainId columns] = [] from rfl, List.append_nil, ← h,
      ChainTableRow.after]
    split_ifs <;> rfl

/-- The height only grows. -/
theorem ChainTableRow.after_latest (h : FirstGreatest (heightsOf row.chainId stmts)
      row.latestIndexedBlock row.increasedLatestIndexedBlockAt) (stmt : ChainInfoStmt) :
    FirstGreatest (heightsOf row.chainId (stmts ++ [stmt])) (row.after stmt).latestIndexedBlock
      (row.after stmt).increasedLatestIndexedBlockAt := by
  rw [heightsOf_append]
  cases stmt with
  | insertOrUpdate chainInfo =>
    rw [show heightsOf row.chainId [.insertOrUpdate chainInfo] = [] from rfl, List.append_nil,
      ChainTableRow.after]
    split_ifs
    · exact h
    · exact h
  | updateBeJsonRpcUrls chainId urls =>
    rw [show heightsOf row.chainId [.updateBeJsonRpcUrls chainId urls] = [] from rfl,
      List.append_nil, ChainTableRow.after]
    split_ifs
    · exact h
    · exact h
  | setLatestIndexedBlock chainId height now =>
    by_cases hc : row.chainId = chainId
    · have hh : heightsOf row.chainId [.setLatestIndexedBlock chainId height now] =
          [(height, now)] := by simp [heightsOf, hc]
      rw [hh, ChainTableRow.after, if_pos hc, ChainTableRow.setLatestIndexedBlock]
      split_ifs with hlt
      · exact h.snoc_lt (x := (height, now)) hlt
      · exact h.snoc_le (x := (height, now)) (not_lt.1 hlt)
    · have hh : heightsOf row.chainId [.setLatestIndexedBlock chainId height now] = [] := by
        simp [heightsOf, hc]
      rwa [hh, List.append_nil, ChainTableRow.after, if_neg hc]
  | operate chainId columns =>
    rw [show heightsOf row.chainId [.operate chainId columns] = [] from rfl, List.append_nil,
      ChainTableRow.after]
    split_ifs
    · exact h
    · exact h

/-- The other columns are those that an operator set last. -/
theorem ChainTableRow.after_operator (h : row.operatorColumns =
      (operatedOf row.chainId stmts).getLastD ⟨none, none, none, none⟩) (stmt : ChainInfoStmt) :
    (row.after stmt).operatorColumns =
      (operatedOf row.chainId (stmts ++ [stmt])).getLastD ⟨none, none, none, none⟩ := by
  rw [operatedOf_append]
  cases stmt with
  | insertOrUpdate chainInfo =>
    rw [show operatedOf row.chainId [.insertOrUpdate chainInfo] = [] from rfl, List.append_nil, ← h,
      ChainTableRow.after]
    split_ifs <;> rfl
  | updateBeJsonRpcUrls chainId urls =>
    rw [show operatedOf row.chainId [.updateBeJsonRpcUrls chainId urls] = [] from rfl,
      List.append_nil, ← h, ChainTableRow.after]
    split_ifs <;> rfl
  | setLatestIndexedBlock chainId height now =>
    rw [show operatedOf row.chainId [.setLatestIndexedBlock chainId height now] = [] from rfl,
      List.append_nil, ← h, ChainTableRow.after, ChainTableRow.setLatestIndexedBlock]
    split_ifs <;> rfl
  | operate chainId columns =>
    by_cases hc : row.chainId = chainId
    · have ho : operatedOf row.chainId [.operate chainId columns] = [columns] := by
        simp [operatedOf, hc]
      rw [ho, List.getLastD_concat, ChainTableRow.after, if_pos hc]
      rfl
    · have ho : operatedOf row.chainId [.operate chainId columns] = [] := by
        simp [operatedOf, hc]
      rwa [ho, List.append_nil, ChainTableRow.after, if_neg hc]

/-- One more statement. -/
theorem ChainTableRow.History.after (h : History record stmts row) (stmt : ChainInfoStmt) :
    History record (stmts ++ [stmt]) (row.after stmt) := by
  have hid : (row.after stmt).chainId = row.chainId := row.after_key stmt
  refine ⟨hid.trans h.chainId, (row.after_name stmt).trans h.name, ?_, ?_, ?_, ?_⟩
  · rw [hid]
    exact h.config.after stmt
  · rw [hid]
    exact row.after_urls record h.urls stmt
  · rw [hid]
    exact row.after_latest h.latest stmt
  · rw [hid]
    exact row.after_operator h.operator stmt

end

/-! ## Runs -/

/-- A chain that was registered with `record` between the statements `before` and `after`. -/
structure RegisteredWith (before : List ChainInfoStmt) (record : RecordChainInfo)
    (after : List ChainInfoStmt) (row : ChainTableRow) : Prop where
  inserts : ChainInfoStmt.Inserts (chainInfoAfter before) (.insertOrUpdate record) record
  history : row.History record after

theorem chainInfoAfter_append_singleton (stmts : List ChainInfoStmt) (stmt : ChainInfoStmt) :
    chainInfoAfter (stmts ++ [stmt]) = stmt.after (chainInfoAfter stmts) := by
  simp [chainInfoAfter]

/-- Every row has its history. -/
theorem exists_registeredWith {stmts : List ChainInfoStmt} {row : ChainTableRow}
    (h : row ∈ chainInfoAfter stmts) : ∃ before record after,
      stmts = before ++ .insertOrUpdate record :: after ∧
        RegisteredWith before record after row := by
  induction stmts using List.reverseRecOn generalizing row with
  | nil => exact absurd h Table.not_mem_empty
  | append_singleton stmts stmt ih =>
    rw [chainInfoAfter_append_singleton, ChainInfoStmt.mem_after_iff] at h
    rcases h with ⟨row₀, hrow, rfl⟩ | ⟨record, hins, rfl⟩
    · obtain ⟨before, record, after, rfl, hreg⟩ := ih hrow
      exact ⟨before, record, after ++ [stmt], by rw [List.append_assoc, List.cons_append],
        hreg.inserts, hreg.history.after stmt⟩
    · obtain rfl := hins.stmt
      exact ⟨stmts, record, [], rfl, hins, .row record⟩

/-- The names of the chains are distinct. -/
theorem chainInfoAfter_names {stmts : List ChainInfoStmt} {a b : ChainTableRow}
    (ha : a ∈ chainInfoAfter stmts) (hb : b ∈ chainInfoAfter stmts) (h : a.name = b.name) :
    a = b := by
  induction stmts using List.reverseRecOn generalizing a b with
  | nil => exact absurd ha Table.not_mem_empty
  | append_singleton stmts stmt ih =>
    rw [chainInfoAfter_append_singleton, ChainInfoStmt.mem_after_iff] at ha hb
    rcases ha with ⟨a₀, ha, rfl⟩ | ⟨record, hins, rfl⟩
    · rcases hb with ⟨b₀, hb, rfl⟩ | ⟨record, hins, rfl⟩
      · rw [ChainTableRow.after_name, ChainTableRow.after_name] at h
        rw [ih ha hb h]
      · rw [ChainTableRow.after_name] at h
        exact absurd h (hins.name a₀ ha)
    · rcases hb with ⟨b₀, hb, rfl⟩ | ⟨record', hins', rfl⟩
      · rw [ChainTableRow.after_name] at h
        exact absurd h.symm (hins.name b₀ hb)
      · have he := hins.stmt.symm.trans hins'.stmt
        rw [ChainInfoStmt.insertOrUpdate.inj he]

/-- A row stays, with its chain id and its name. -/
theorem exists_row_after {stmts : List ChainInfoStmt} {row : ChainTableRow}
    (h : row ∈ chainInfoAfter stmts) (more : List ChainInfoStmt) :
    ∃ row' ∈ chainInfoAfter (stmts ++ more), row'.chainId = row.chainId ∧ row'.name = row.name := by
  induction more using List.reverseRecOn with
  | nil => exact ⟨row, by rwa [List.append_nil], rfl, rfl⟩
  | append_singleton more stmt ih =>
    obtain ⟨row', hrow', hid, hname⟩ := ih
    refine ⟨row'.after stmt, ?_, (row'.after_key stmt).trans hid,
      (row'.after_name stmt).trans hname⟩
    rw [← List.append_assoc, chainInfoAfter_append_singleton, ChainInfoStmt.mem_after_iff]
    exact .inl ⟨row', hrow', rfl⟩

/-- **The rows of `chain_info`** after any statements of all indexers: a row has the name of the
    first registration of its chain, what the last one says, the URLs that were stored last, and
    the greatest height that was set, with the time when it was first set; names are unique, and a
    registration is lost only to a chain that has the name already. -/
theorem chainInfo_history (stmts : List ChainInfoStmt) :
    (∀ row ∈ chainInfoAfter stmts, ∃ before record after,
      stmts = before ++ .insertOrUpdate record :: after ∧
        RegisteredWith before record after row) ∧
    (∀ a ∈ chainInfoAfter stmts, ∀ b ∈ chainInfoAfter stmts, a.name = b.name → a = b) ∧
    ∀ record, .insertOrUpdate record ∈ stmts → record.validateBasic = .ok () →
      ∃ row ∈ chainInfoAfter stmts, row.chainId = record.chainId ∨ row.name = record.name := by
  refine ⟨fun row hrow => exists_registeredWith hrow,
    fun a ha b hb h => chainInfoAfter_names ha hb h, fun record hm hvalid => ?_⟩
  obtain ⟨before, after, rfl⟩ := List.append_of_mem hm
  have hrow : ∃ row ∈ chainInfoAfter (before ++ [.insertOrUpdate record]),
      row.chainId = record.chainId ∨ row.name = record.name := by
    rw [chainInfoAfter_append_singleton]
    by_cases hhas : (chainInfoAfter before).Has record.chainId
    · obtain ⟨row, hrow, hk⟩ := Table.has_iff.1 hhas
      refine ⟨row.after (.insertOrUpdate record), ?_, .inl ((row.after_key _).trans hk)⟩
      exact ChainInfoStmt.mem_after_iff.2 (.inl ⟨row, hrow, rfl⟩)
    · by_cases hname : ∃ row ∈ chainInfoAfter before, row.name = record.name
      · obtain ⟨row, hrow, hn⟩ := hname
        refine ⟨row.after (.insertOrUpdate record), ?_, .inr ((row.after_name _).trans hn)⟩
        exact ChainInfoStmt.mem_after_iff.2 (.inl ⟨row, hrow, rfl⟩)
      · refine ⟨record.row, ?_, .inl rfl⟩
        refine ChainInfoStmt.mem_after_iff.2 (.inr ⟨record, ⟨rfl, hvalid, hhas, ?_⟩, rfl⟩)
        exact fun row hrow hn => hname ⟨row, hrow, hn⟩
  obtain ⟨row, hrow, hor⟩ := hrow
  obtain ⟨row', hrow', hid, hname⟩ := exists_row_after hrow after
  rw [List.append_assoc, List.singleton_append] at hrow'
  exact ⟨row', hrow', hor.imp hid.trans hname.trans⟩

end RollappExplorer
