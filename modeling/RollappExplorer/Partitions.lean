/-
  Partitioned tables (`database/postgres/partitioning.go`, `utils/sql.go`).

  The tables of records are partitioned by the chain id, `transaction` by the week and the
  chain id.  Their partitions are created before the blocks of a chain are indexed, under
  names that are derived from these keys.

  * `preparePartitionedTablesForChainId`, `preparePartitionedTablesForEpochAndChainId`;
  * `preparedPartition_isUsed_iff`: the records of a block go to the partitions prepared
    for it iff the chain id is in normal form;
  * `prepared_iff`: a preparation that returns no error has provided a partition iff the
    partition was there before, or its name was free.
-/
import RollappExplorer.ChainList
import RollappExplorer.Effect.Prog
import RollappExplorer.Go.Numerals
import RollappExplorer.Records

namespace RollappExplorer

open Go Effect

/-! ## Names and ids -/

def getTablesPartitionedByChainId : List String :=
  ["account", "recent_account_transaction", "ref_account_to_recent_tx", "failed_block",
    "ibc_transaction"]

def getTablesPartitionedByEpochWeekAndChainId : List String := ["transaction"]

/-- `\w` -/
def isWord (c : Char) : Bool := c.isAlphanum || c == '_'

/-- Every character that is not a `\w` is replaced by two underscores. -/
def escapeChainId (chainId : String) : String :=
  String.ofList (chainId.toList.flatMap fun c => if isWord c then [c] else ['_', '_'])

def getPartitionedTableNameByChainId (tableName chainId : String) : String :=
  tableName ++ "_" ++ escapeChainId chainId

def getPartitionedTableNameBySaltInt64AndChainId (tableName : String) (salt : ℤ)
    (chainId : String) : String :=
  tableName ++ "_" ++ (toString salt ++ "_" ++ escapeChainId chainId)

/-- The loop of `MakePartitionIdFromKeys` from the key number `i` on, each key by its text. -/
def partitionKeyTexts (i : ℕ) : List String → Except String (List String)
  | [] => .ok []
  | key :: keys =>
    let str := trimSpace key
    if str = "" then .error s!"key[{i}] is empty"
    else do
      let texts ← partitionKeyTexts (i + 1) keys
      return str :: texts

/-- `MakePartitionIdFromKeys`, with the panic as an error. -/
def makePartitionIdFromKeys (keys : List String) : Except String String :=
  if keys.length = 0 then .error "no keys"
  else do
    let texts ← partitionKeyTexts 0 keys
    return " ".intercalate texts

/-! ## Preparing partitions -/

/-- A row of `partition_table_info`. -/
structure PartitionTableInfo where
  partitionTableName : String
  largeTableName : String
  partitionKey : String
  partitionKeyPart1 : String
  partitionKeyPart2 : Option String

inductive PartitionCall where
  /-- `time.Now().UTC().Unix()` -/
  | now
  /-- `CREATE TABLE IF NOT EXISTS partitionTable PARTITION OF table FOR VALUES IN ('partitionId')` -/
  | createTable (partitionTable table partitionId : String)
  /-- `INSERT INTO partition_table_info … ON CONFLICT(partition_table_name) DO NOTHING` -/
  | insertPartitionTableInfo (info : PartitionTableInfo)

/-- The answers of a call; `none` is a nil error. -/
abbrev PartitionCall.Ans : PartitionCall → Type
  | .now => ℤ
  | .createTable _ _ _ | .insertPartitionTableInfo _ => Option Error

abbrev partitionSig : Sig := ⟨PartitionCall, PartitionCall.Ans⟩

abbrev performPartition (c : PartitionCall) : Prog partitionSig c.Ans :=
  Prog.perform (S := partitionSig) c

def isErrPartitionTableAlreadyExists (err : Error) (partitionTable : String) : Bool :=
  contains err "pq: relation " && contains err partitionTable && contains err " already exists"

/-- The checks of `insertNewPartitionedTableInfoIfNotExists`, on the parts by their texts. -/
def checkPartitionedTableInfo (largeTableName partitionedTableName partitionedKeyStr : String)
    (partitionKeyParts : List String) : Except Error Unit := do
  failIf (¬ (largeTableName ++ "_").toList <+: partitionedTableName.toList)
    (s!"invalid partitioned table name: {partitionedTableName}, " ++
      s!"must starts with {largeTableName}_")
  failIf (largeTableName = "") "invalid large table name, must not be empty"
  failIf (partitionedKeyStr = "") "invalid partition key, must not be empty"
  failIf (partitionKeyParts.length < 1)
    "invalid partition key parts, must have at least 1 part"
  failIf (partitionKeyParts.length > 2)
    "invalid partition key parts, currently supported at most 2 parts"
  failIf (partitionKeyParts.headD "" = "") "invalid partition key part 1, must not be empty"

/-- The row that `insertNewPartitionedTableInfoIfNotExists` inserts. -/
def newPartitionTableInfo (largeTableName partitionedTableName partitionedKeyStr : String)
    (partitionKeyParts : List String) : PartitionTableInfo where
  partitionTableName := partitionedTableName
  largeTableName := largeTableName
  partitionKey := partitionedKeyStr
  partitionKeyPart1 := partitionKeyParts.headD ""
  partitionKeyPart2 :=
    if partitionKeyParts.getD 1 "" = "" then none else partitionKeyParts.getD 1 ""

def insertNewPartitionedTableInfoIfNotExists
    (largeTableName partitionedTableName partitionedKeyStr : String)
    (partitionKeyParts : List String) : Prog partitionSig (Option Error) :=
  match checkPartitionedTableInfo largeTableName partitionedTableName partitionedKeyStr
      partitionKeyParts with
  | .error err => return some err
  | .ok () =>
    performPartition <| .insertPartitionTableInfo <|
      newPartitionTableInfo largeTableName partitionedTableName partitionedKeyStr partitionKeyParts

/-- The common part of the two functions below. -/
def createPartitionedTable (table partitionTable partitionId : String)
    (partitionKeyParts : List String) : Prog partitionSig (Option Error) := do
  match ← performPartition (.createTable partitionTable table partitionId) with
  | some err =>
    if isErrPartitionTableAlreadyExists err partitionTable then return none else return some err
  | none =>
    let err ← insertNewPartitionedTableInfoIfNotExists table partitionTable partitionId
      partitionKeyParts
    return err.map fun err =>
      wrap err s!"failed to insert new partitioned table info for {partitionTable}"

def createPartitionedTableForChainIdIfNotExists (table chainId : String) :
    Prog partitionSig (Option Error) :=
  createPartitionedTable table (getPartitionedTableNameByChainId table chainId) chainId [chainId]

def createPartitionedTableForEpochWeekAndChainIdIfNotExists (table : String) (epochWeek : ℤ)
    (chainId : String) : Prog partitionSig (Option Error) :=
  match makePartitionIdFromKeys [toString epochWeek, chainId] with
  | .error msg => .panic msg
  | .ok partitionId =>
    createPartitionedTable table
      (getPartitionedTableNameBySaltInt64AndChainId table epochWeek chainId) partitionId
      [toString epochWeek, chainId]

/-- The loop over the tables, up to the first error. -/
def forTables (create : String → Prog partitionSig (Option Error)) (failure : String → String) :
    List String → Prog partitionSig (Option Error)
  | [] => return none
  | tableName :: tableNames => do
    match ← create tableName with
    | some err => return some (wrap err (failure tableName))
    | none => forTables create failure tableNames

def preparePartitionedTablesForChainId (chainId : String) : Prog partitionSig (Option Error) :=
  forTables (fun tableName => createPartitionedTableForChainIdIfNotExists tableName chainId)
    (fun tableName => s!"failed to create partitioned table of table {tableName} " ++
      s!"for chain-id: {chainId}")
    getTablesPartitionedByChainId

def preparePartitionedTablesForEpochAndChainId (epochUtcSeconds : ℤ) (chainId : String) :
    Prog partitionSig (Option Error) := do
  let now ← performPartition .now
  let epochWeek := getEpochWeek now epochUtcSeconds
  forTables
    (fun tableName =>
      createPartitionedTableForEpochWeekAndChainIdIfNotExists tableName epochWeek chainId)
    (fun tableName => s!"failed to create partitioned table of table {tableName} " ++
      s!"for epoch week & chain id: [{epochWeek}. {chainId}]")
    getTablesPartitionedByEpochWeekAndChainId

/-! ## Preparations

A preparation is a call of either function; each is to provide, for every table of a
list, one partition under a derived name. -/

inductive Preparation where
  | chainId (chainId : String)
  | epochAndChainId (epochUtcSeconds : ℤ) (chainId : String)

namespace Preparation

def run : Preparation → Prog partitionSig (Option Error)
  | .chainId c => preparePartitionedTablesForChainId c
  | .epochAndChainId e c => preparePartitionedTablesForEpochAndChainId e c

def tables : Preparation → List String
  | .chainId _ => getTablesPartitionedByChainId
  | .epochAndChainId _ _ => getTablesPartitionedByEpochWeekAndChainId

/-- The partition id that is asked for. -/
def partitionId (now : ℤ) : Preparation → Except String String
  | .chainId c => .ok c
  | .epochAndChainId e c => makePartitionIdFromKeys [toString (getEpochWeek now e), c]

/-- The name of the partition of `table`. -/
def partitionTable (now : ℤ) (table : String) : Preparation → String
  | .chainId c => getPartitionedTableNameByChainId table c
  | .epochAndChainId e c =>
    getPartitionedTableNameBySaltInt64AndChainId table (getEpochWeek now e) c

end Preparation

/-! ## The partitions that the records of a block go to -/

/-- The `partition_id` that `InsertRecordTransactionsIfNotExists` writes. -/
def RecordTransaction.insertedPartitionId (now : ℤ) (t : RecordTransaction) :
    Except String String :=
  makePartitionIdFromKeys [toString (getEpochWeek now t.epoch), t.chainId]

/-- The values of the records of a block with the time `epoch` are the ids of the partitions
    prepared before; `now` is the time of the preparation, `now'` that of the insertion. -/
structure PreparedPartitionIsUsed (now now' : ℤ) (chainId : String) (height : ℤ) (hash : String)
    (epoch : ℤ) (messageTypes : List String) (txType addr : String) : Prop where
  transaction : ∃ partitionId,
    (Preparation.epochAndChainId epoch chainId).partitionId now = .ok partitionId ∧
    (newRecordTransactionForInsert chainId height hash epoch messageTypes
      txType).insertedPartitionId now' = .ok partitionId
  account : (Preparation.chainId chainId).partitionId now =
    .ok (newRecordAccountForInsert chainId addr).chainId
  recentAccountTransaction : (Preparation.chainId chainId).partitionId now =
    .ok (newRecordRecentAccountTransactionForInsert chainId height hash epoch messageTypes).chainId
  refAccountToRecentTx : (Preparation.chainId chainId).partitionId now =
    .ok (newRecordRefAccountToRecentTxForInsert chainId addr height hash).chainId

theorem isSpace_of_isDigit {c : Char} (h : c.isDigit = true) : isSpace c = false := by
  simp only [Char.isDigit, Bool.and_eq_true, decide_eq_true_eq] at h
  obtain ⟨hlow, hhigh⟩ := h
  have hlow' : 48 ≤ c.toNat := hlow
  have hhigh' : c.toNat ≤ 57 := hhigh
  simp [isSpace]
  omega

theorem isSpace_of_mem_toString {n : ℤ} {c : Char} (hc : c ∈ (toString n).toList) :
    isSpace c = false := by
  rcases mem_toString hc with h | rfl
  · exact isSpace_of_isDigit h
  · rfl

theorem trimSpace_toString (n : ℤ) : trimSpace (toString n) = toString n := by
  apply String.toList_injective
  rw [toList_trimSpace]
  exact trim_eq_self (fun c hc => isSpace_of_mem_toString (List.mem_of_mem_head? hc))
    fun c hc => isSpace_of_mem_toString (List.mem_of_mem_getLast? hc)

theorem toString_ne_empty (n : ℤ) : toString n ≠ "" := by
  intro h
  have hnil := congrArg String.toList h
  rw [toList_toString] at hnil
  split_ifs at hnil
  · cases hnil
  · exact Nat.toDigits_ne_nil hnil

/-- The id of a week and a chain id. -/
theorem makePartitionIdFromKeys_week_ok_iff {week : ℤ} {c partitionId : String} :
    makePartitionIdFromKeys [toString week, c] = .ok partitionId ↔
      trimSpace c ≠ "" ∧ partitionId = toString week ++ " " ++ trimSpace c := by
  unfold makePartitionIdFromKeys
  rw [if_neg (by simp)]
  simp only [partitionKeyTexts, trimSpace_toString, if_neg (toString_ne_empty week)]
  split_ifs with hc
  · exact iff_of_false (fun h => by cases h) fun h => h.1 hc
  · constructor
    · intro h
      exact ⟨hc, (Except.ok.inj h).symm⟩
    · rintro ⟨-, rfl⟩
      rfl

theorem makePartitionIdFromKeys_week {week : ℤ} {c : String} (hc : trimSpace c ≠ "") :
    makePartitionIdFromKeys [toString week, c] =
      .ok (toString week ++ " " ++ trimSpace c) :=
  makePartitionIdFromKeys_week_ok_iff.2 ⟨hc, rfl⟩

/-- The week and the rest of an id can be read off. -/
theorem toString_append_space_inj {week week' : ℤ} {c c' : String}
    (h : toString week ++ " " ++ c = toString week' ++ " " ++ c') : week = week' ∧ c = c' := by
  have hread (n : ℤ) (s : String) :
      (toString n ++ " " ++ s).toList = (toString n).toList ++ ' ' :: s.toList := by
    rw [String.toList_append, String.toList_append, List.append_assoc]
    rfl
  have hspace (n : ℤ) : ' ' ∉ (toString n).toList := fun hc =>
    absurd (isSpace_of_mem_toString hc) (by decide)
  have hlist := congrArg String.toList h
  rw [hread, hread] at hlist
  obtain ⟨hweek, hchain⟩ := append_separator_inj (hspace week) (hspace week') hlist
  exact ⟨toString_inj (String.toList_injective hweek), String.toList_injective hchain⟩

/-- A chain id in normal form is trimmed. -/
theorem trimSpace_of_normalizeChainId {c : String} (h : normalizeChainId c = c) :
    trimSpace c = c :=
  calc
    trimSpace c = trimSpace (normalizeChainId c) := by rw [h]
    _ = normalizeChainId c := trimSpace_toLower_trimSpace c
    _ = c := h

/-- **The prepared partition is the one that is used** iff the chain id is in normal form. -/
theorem preparedPartition_isUsed_iff {isUrl : String → Bool} {cc : ChainConfig}
    (hcc : cc.validate isUrl = none) (now now' height : ℤ) (hash : String) {epoch : ℤ}
    (he : 1 ≤ epoch) (messageTypes : List String) (txType addr : String) :
    PreparedPartitionIsUsed now now' cc.chainId height hash epoch messageTypes txType addr ↔
      normalizeChainId cc.chainId = cc.chainId := by
  constructor
  · intro h
    exact (Except.ok.inj h.account).symm
  · intro h
    have hne : cc.chainId ≠ "" := by
      intro hnil
      unfold ChainConfig.validate at hcc
      rw [if_pos (by rw [hnil]; decide)] at hcc
      cases hcc
    have hweek (t : ℤ) : getEpochWeek t epoch = epoch.tdiv (86400 * 7) := by
      rw [getEpochWeek, if_neg (by omega)]
    have hid (t : ℤ) : makePartitionIdFromKeys [toString (getEpochWeek t epoch), cc.chainId] =
        .ok (toString (epoch.tdiv (86400 * 7)) ++ " " ++ cc.chainId) := by
      have htrim := trimSpace_of_normalizeChainId h
      rw [hweek, makePartitionIdFromKeys_week (by rwa [htrim]), htrim]
    refine ⟨⟨_, hid now, ?_⟩, congrArg _ h.symm, congrArg _ h.symm, congrArg _ h.symm⟩
    show makePartitionIdFromKeys
      [toString (getEpochWeek now' epoch), normalizeChainId cc.chainId] = _
    rw [h, hid]

/-- A chain whose id is in normal form. -/
def lowerCaseChain : ChainConfig := ⟨"rollapp_1-1", ["https://be.example"], false⟩

theorem lowerCaseChain_isUsed :
    PreparedPartitionIsUsed 0 0 lowerCaseChain.chainId 5 "AB" 1720000000
      ["/cosmos.bank.v1beta1.MsgSend"] "cosmos" "r1" := by
  have hvalid : lowerCaseChain.validate (fun _ => true) = none := by decide
  exact (preparedPartition_isUsed_iff hvalid 0 0 5 "AB" (by decide) _ "cosmos" "r1").2 (by decide)

/-- A chain whose id is accepted, but in upper case. -/
def upperCaseChain : ChainConfig := ⟨"Rollapp_1-1", ["https://be.example"], false⟩

/-- The records of such a chain do not go to the partitions prepared for it. -/
theorem upperCaseChain_isNotUsed :
    upperCaseChain.validate (fun _ => true) = none ∧
    (Preparation.epochAndChainId 1720000000 upperCaseChain.chainId).partitionId 0 =
      .ok "2843 Rollapp_1-1" ∧
    (newRecordTransactionForInsert upperCaseChain.chainId 5 "AB" 1720000000
      ["/cosmos.bank.v1beta1.MsgSend"] "cosmos").insertedPartitionId 0 = .ok "2843 rollapp_1-1" ∧
    ¬ PreparedPartitionIsUsed 0 0 upperCaseChain.chainId 5 "AB" 1720000000
      ["/cosmos.bank.v1beta1.MsgSend"] "cosmos" "r1" := by
  refine ⟨by decide, by decide, by decide, fun h => ?_⟩
  exact absurd (Except.ok.inj h.account) (by decide)

/-! ## The server -/

/-- A partition of `parent`, with its `VALUES IN` list. -/
structure Partition where
  name : String
  parent : String
  values : List String

/-- The names of all relations (tables and indexes), the partitions, and the rows of
    `partition_table_info`. -/
structure Catalog where
  relations : List String
  partitions : List Partition
  partitionTableInfo : List PartitionTableInfo

/-- The relations of the schema, none of them a partition. -/
def unpartitioned : Catalog where
  relations := ["chain_info", "chain_info_pkey", "chain_info_unique_chain_name", "account",
    "account_pkey", "account_b32_addr_index", "recent_account_transaction",
    "recent_account_transaction_pkey", "reduced_ref_count_recent_account_transaction",
    "reduced_ref_count_recent_account_transaction_pkey", "ref_account_to_recent_tx",
    "ref_account_to_recent_tx_pkey", "ref_account_to_recent_tx_by_account_index", "transaction",
    "transaction_pkey", "transaction_hash_index", "ibc_transaction", "ibc_transaction_pkey",
    "ibctx_same_sequence_index", "failed_block", "failed_block_pkey", "partition_table_info",
    "partition_table_info_pkey", "pti_table_and_key1_index"]
  partitions := []
  partitionTableInfo := []

/-- An unquoted identifier is folded to lower case, and cut after 63 bytes. -/
def identifier (name : String) : String :=
  String.ofList ((name.toList.map Char.toLower).take 63)

/-- The relation belongs to `table` by its name. -/
def BelongsTo (table name : String) : Prop := (table ++ "_").toList <+: name.toList

/-- The names the server chooses for the indexes of a new partition: they begin as the name of
    the partition does. -/
structure Server where
  indexNames : String → List String
  belongs : ∀ table name, BelongsTo table name → ∀ i ∈ indexNames name, BelongsTo table i

namespace Catalog

/-- `CREATE TABLE IF NOT EXISTS partitionTable PARTITION OF table FOR VALUES IN ('partitionId')` -/
def createTable (S : Server) (partitionTable table partitionId : String) (cat : Catalog) :
    Catalog :=
  let name := identifier partitionTable
  if name ∈ cat.relations then cat
  else { cat with
    relations := name :: S.indexNames name ++ cat.relations
    partitions := ⟨name, table, [partitionId]⟩ :: cat.partitions }

def insertPartitionTableInfo (info : PartitionTableInfo) (cat : Catalog) : Catalog :=
  if info.partitionTableName ∈ cat.partitionTableInfo.map (·.partitionTableName) then cat
  else { cat with partitionTableInfo := info :: cat.partitionTableInfo }

/-- A partition of the table would take the same value. -/
def Overlaps (cat : Catalog) (table partitionId : String) : Prop :=
  ∃ p ∈ cat.partitions, p.parent = table ∧ partitionId ∈ p.values

/-- The table has a partition for exactly this id. -/
def HasPartition (cat : Catalog) (table partitionId : String) : Prop :=
  ∃ p ∈ cat.partitions, p.parent = table ∧ p.values = [partitionId]

end Catalog

/-- The server at the time `now`. A statement may fail, and then changes nothing; it fails with
    the text that the relation already exists only if it does. -/
def Server.handler (S : Server) (now : ℤ) : Handler partitionSig Catalog where
  allows
    | .now, a, _ => a = now
    | .createTable partitionTable table partitionId, none, cat =>
      identifier partitionTable ∈ cat.relations ∨ ¬ cat.Overlaps table partitionId
    | .createTable partitionTable _ _, some err, cat =>
      isErrPartitionTableAlreadyExists err partitionTable = true →
        identifier partitionTable ∈ cat.relations
    | .insertPartitionTableInfo _, _, _ => True
  effect
    | .createTable partitionTable table partitionId, none, cat =>
      cat.createTable S partitionTable table partitionId
    | .insertPartitionTableInfo info, none, cat => cat.insertPartitionTableInfo info
    | _, _, cat => cat

/-! ## One partition -/

/-- Whether `table` has its partitions, and the names it may give to new ones, are the same. -/
def Untouched (table : String) (cat cat' : Catalog) : Prop :=
  (∀ partitionId, cat'.HasPartition table partitionId ↔ cat.HasPartition table partitionId) ∧
    ∀ name, BelongsTo table name → (name ∈ cat'.relations ↔ name ∈ cat.relations)

/-- No name belongs to both tables. -/
def SeparateNames (table table' : String) : Prop :=
  table ≠ table' ∧ ∀ name, BelongsTo table name → ¬ BelongsTo table' name

/-- What a program that provides one partition does: when it returns no error, the partition is
    there iff it was before or its name was free. -/
structure Provides (table name partitionId : String) (cat : Catalog) (err : Option Error)
    (cat' : Catalog) : Prop where
  prepared : err = none →
    (cat'.HasPartition table partitionId ↔
      cat.HasPartition table partitionId ∨ name ∉ cat.relations)
  untouched : ∀ table', SeparateNames table table' → Untouched table' cat cat'

variable {S : Server} {now : ℤ}

theorem Untouched.refl (table : String) (cat : Catalog) : Untouched table cat cat :=
  ⟨fun _ => Iff.rfl, fun _ _ => Iff.rfl⟩

theorem Untouched.trans {table : String} {cat cat₁ cat₂ : Catalog} (h : Untouched table cat cat₁)
    (h' : Untouched table cat₁ cat₂) : Untouched table cat cat₂ :=
  ⟨fun i => (h'.1 i).trans (h.1 i), fun n hn => (h'.2 n hn).trans (h.2 n hn)⟩

theorem Catalog.createTable_provides {partitionTable table partitionId : String} {cat : Catalog}
    (hb : BelongsTo table (identifier partitionTable)) :
    Provides table (identifier partitionTable) partitionId cat none
      (cat.createTable S partitionTable table partitionId) := by
  unfold Catalog.createTable
  dsimp only
  split_ifs with hname
  · exact ⟨fun _ => (or_iff_left (not_not.2 hname)).symm, fun _ _ => .refl _ _⟩
  · refine ⟨fun _ => iff_of_true ⟨_, List.mem_cons_self, rfl, rfl⟩ (.inr hname), ?_⟩
    rintro table' ⟨hne, hsep⟩
    refine ⟨fun i => ⟨?_, ?_⟩, fun n hn => ⟨fun hm => ?_, fun hm => ?_⟩⟩
    · rintro ⟨p, hp, hparent, hvalues⟩
      rcases List.mem_cons.1 hp with rfl | hp
      · exact absurd hparent hne
      · exact ⟨p, hp, hparent, hvalues⟩
    · rintro ⟨p, hp, h⟩
      exact ⟨p, List.mem_cons_of_mem _ hp, h⟩
    · rcases List.mem_cons.1 hm with rfl | hm
      · exact absurd hn (hsep _ hb)
      · rcases List.mem_append.1 hm with hm | hm
        · exact absurd hn (hsep _ (S.belongs _ _ hb n hm))
        · exact hm
    · exact List.mem_cons_of_mem _ (List.mem_append_right _ hm)

/-- A row of `partition_table_info` is no relation. -/
theorem wp_insertNewPartitionedTableInfo {table partitionTable partitionId : String}
    {keyParts : List String} (cat : Catalog) :
    (Spec.anything _).wp (S.handler now)
      (insertNewPartitionedTableInfoIfNotExists table partitionTable partitionId keyParts)
      (fun _ cat' => cat'.relations = cat.relations ∧ cat'.partitions = cat.partitions) cat := by
  unfold insertNewPartitionedTableInfoIfNotExists
  split
  · exact ⟨rfl, rfl⟩
  · refine ⟨trivial, fun a _ => ⟨trivial, ?_⟩⟩
    cases a with
    | some err => exact ⟨rfl, rfl⟩
    | none =>
      show (Catalog.insertPartitionTableInfo _ cat).relations = _ ∧
        (Catalog.insertPartitionTableInfo _ cat).partitions = _
      unfold Catalog.insertPartitionTableInfo
      split_ifs <;> exact ⟨rfl, rfl⟩

theorem Provides.congr {table name partitionId : String} {cat cat₁ cat₂ : Catalog}
    (h : Provides table name partitionId cat none cat₁)
    (he : cat₂.relations = cat₁.relations ∧ cat₂.partitions = cat₁.partitions)
    (err : Option Error) : Provides table name partitionId cat err cat₂ := by
  obtain ⟨hrelations, hpartitions⟩ := he
  refine ⟨fun _ => ?_, fun table' hsep => ⟨fun i => ?_, fun n hn => ?_⟩⟩
  · rw [Catalog.HasPartition, hpartitions]
    exact h.prepared rfl
  · rw [Catalog.HasPartition, hpartitions]
    exact (h.untouched table' hsep).1 i
  · rw [hrelations]
    exact (h.untouched table' hsep).2 n hn

/-- **One partition.** -/
theorem wp_createPartitionedTable {table partitionTable partitionId : String}
    {keyParts : List String} (hb : BelongsTo table (identifier partitionTable)) (cat : Catalog) :
    (Spec.anything _).wp (S.handler now)
      (createPartitionedTable table partitionTable partitionId keyParts)
      (Provides table (identifier partitionTable) partitionId cat) cat := by
  refine Spec.wp_call_bind trivial fun a ha => ⟨trivial, ?_⟩
  cases a with
  | some err =>
    show (Spec.anything _).wp (S.handler now) (if _ then _ else _) _ cat
    split_ifs with hexists
    · -- the relation exists, and is not touched
      have hname : identifier partitionTable ∈ cat.relations := ha hexists
      exact ⟨fun _ => (or_iff_left (not_not.2 hname)).symm, fun _ _ => .refl _ _⟩
    · exact ⟨fun h => absurd h (Option.some_ne_none err), fun _ _ => .refl _ _⟩
  | none =>
    refine Spec.wp_seq (wp_insertNewPartitionedTableInfo _) fun err cat' he => ?_
    exact (Catalog.createTable_provides hb).congr he _

/-! ## The tables of a preparation -/

theorem SeparateNames.symm {table table' : String} (h : SeparateNames table table') :
    SeparateNames table' table :=
  ⟨h.1.symm, fun name hn hn' => h.2 name hn' hn⟩

theorem BelongsTo.separateNames {table table' : String}
    (h : ¬ (table ++ "_").toList <+: (table' ++ "_").toList)
    (h' : ¬ (table' ++ "_").toList <+: (table ++ "_").toList) : SeparateNames table table' := by
  refine ⟨?_, fun name hn hn' => ?_⟩
  · rintro rfl
    exact h (List.prefix_refl _)
  · rcases List.prefix_or_prefix_of_prefix hn hn' with hp | hp
    · exact h hp
    · exact h' hp

theorem separateNames_tablesPartitionedByChainId :
    getTablesPartitionedByChainId.Pairwise SeparateNames := by
  have h : getTablesPartitionedByChainId.Pairwise fun table table' =>
      ¬ (table ++ "_").toList <+: (table' ++ "_").toList ∧
        ¬ (table' ++ "_").toList <+: (table ++ "_").toList := by decide
  exact h.imp fun ⟨h, h'⟩ => BelongsTo.separateNames h h'

/-- A short name in lower case stays the beginning of an identifier. -/
theorem belongsTo_identifier {table : String} (rest : String)
    (hl : (table ++ "_").toList.map Char.toLower = (table ++ "_").toList)
    (hlen : (table ++ "_").length ≤ 63) : BelongsTo table (identifier (table ++ "_" ++ rest)) := by
  show (table ++ "_").toList <+: (identifier (table ++ "_" ++ rest)).toList
  have hcut : (table ++ "_").toList.length ≤ 63 := by rwa [String.length_toList]
  rw [identifier, String.toList_ofList, String.toList_append (s := table ++ "_"), List.map_append,
    hl, List.take_append, List.take_of_length_le hcut]
  exact List.prefix_append _ _

/-- The identifiers a preparation gives to the partitions of a table belong to it. -/
theorem Preparation.belongsTo_partitionTable (p : Preparation) (now : ℤ) {table : String}
    (ht : table ∈ p.tables) : BelongsTo table (identifier (p.partitionTable now table)) := by
  have hshort : ∀ table ∈
      getTablesPartitionedByChainId ++ getTablesPartitionedByEpochWeekAndChainId,
      (table ++ "_").toList.map Char.toLower = (table ++ "_").toList ∧
        (table ++ "_").length ≤ 63 := by decide
  cases p with
  | chainId c =>
    obtain ⟨hl, hlen⟩ := hshort table (List.mem_append_left _ ht)
    exact belongsTo_identifier _ hl hlen
  | epochAndChainId e c =>
    obtain ⟨hl, hlen⟩ := hshort table (List.mem_append_right _ ht)
    exact belongsTo_identifier _ hl hlen

/-- What a loop over tables does. -/
structure ProvidesAll (tables : List String) (name partitionId : String → String) (cat : Catalog)
    (err : Option Error) (cat' : Catalog) : Prop where
  prepared : err = none → ∀ table ∈ tables,
    (cat'.HasPartition table (partitionId table) ↔
      cat.HasPartition table (partitionId table) ∨ name table ∉ cat.relations)
  untouched : ∀ table', (∀ table ∈ tables, SeparateNames table table') → Untouched table' cat cat'

/-- **The loop** provides the partitions of all its tables. -/
theorem wp_forTables {create : String → Prog partitionSig (Option Error)}
    {failure : String → String} (name partitionId : String → String) {tables : List String}
    (hs : tables.Pairwise SeparateNames) (hb : ∀ table ∈ tables, BelongsTo table (name table))
    (hc : ∀ table ∈ tables, ∀ cat, (Spec.anything _).wp (S.handler now) (create table)
      (Provides table (name table) (partitionId table) cat) cat) (cat : Catalog) :
    (Spec.anything _).wp (S.handler now) (forTables create failure tables)
      (ProvidesAll tables name partitionId cat) cat := by
  induction tables generalizing cat with
  | nil => exact ⟨fun _ table ht => absurd ht List.not_mem_nil, fun _ _ => .refl _ _⟩
  | cons t tables ih =>
    obtain ⟨ht, hs⟩ := List.pairwise_cons.1 hs
    refine Spec.wp_seq (hc t List.mem_cons_self cat) fun err cat₁ h₁ => ?_
    cases err with
    | some err =>
      exact ⟨fun h => absurd h (Option.some_ne_none _),
        fun table' hsep => h₁.untouched table' (hsep t List.mem_cons_self)⟩
    | none =>
      refine Spec.wp_mono (fun err cat' h' => ?_) (ih hs
        (fun table hm => hb table (List.mem_cons_of_mem _ hm))
        (fun table hm => hc table (List.mem_cons_of_mem _ hm)) cat₁)
      refine ⟨fun herr table hm => ?_, fun table' hsep => ?_⟩
      · rcases List.mem_cons.1 hm with rfl | hm
        · -- the other tables do not touch the first one
          have hrest := h'.untouched table fun t' ht' => (ht t' ht').symm
          exact (hrest.1 _).trans (h₁.prepared rfl)
        · have hfirst := h₁.untouched table (ht table hm)
          rw [h'.prepared herr table hm, hfirst.1,
            not_congr (hfirst.2 _ (hb table (List.mem_cons_of_mem _ hm)))]
      · exact (h₁.untouched table' (hsep t List.mem_cons_self)).trans
          (h'.untouched table' fun table hm => hsep table (List.mem_cons_of_mem _ hm))

/-- **A preparation.** -/
theorem wp_preparation (p : Preparation) (cat : Catalog) :
    (Spec.anything _).wp (S.handler now) p.run
      (fun err cat' => err = none → ∃ partitionId, p.partitionId now = .ok partitionId ∧
        ∀ table ∈ p.tables, (cat'.HasPartition table partitionId ↔
          cat.HasPartition table partitionId ∨
            identifier (p.partitionTable now table) ∉ cat.relations)) cat := by
  have hb : ∀ table ∈ p.tables, BelongsTo table (identifier (p.partitionTable now table)) :=
    fun table hm => p.belongsTo_partitionTable now hm
  cases p with
  | chainId c =>
    simp only [Preparation.run, preparePartitionedTablesForChainId,
      createPartitionedTableForChainIdIfNotExists]
    refine Spec.wp_mono (fun err cat' h herr => ⟨c, rfl, h.prepared herr⟩)
      (wp_forTables (fun table => identifier (getPartitionedTableNameByChainId table c))
        (fun _ => c) separateNames_tablesPartitionedByChainId hb
        (fun table hm cat => wp_createPartitionedTable (hb table hm) cat) cat)
  | epochAndChainId e c =>
    simp only [Preparation.run, preparePartitionedTablesForEpochAndChainId,
      createPartitionedTableForEpochWeekAndChainIdIfNotExists]
    refine Spec.wp_call_bind trivial fun t ht => ⟨trivial, ?_⟩
    obtain rfl : t = now := ht
    cases hkeys : makePartitionIdFromKeys [toString (getEpochWeek t e), c] with
    | error msg => trivial -- the only table panics
    | ok partitionId =>
      refine Spec.wp_mono (fun err cat' h herr => ⟨partitionId, hkeys, h.prepared herr⟩)
        (wp_forTables (fun table => identifier
            (getPartitionedTableNameBySaltInt64AndChainId table (getEpochWeek t e) c))
          (fun _ => partitionId) (List.pairwise_singleton _ _) hb
          (fun table hm cat => wp_createPartitionedTable (hb table hm) cat) cat)

/-! ## Sequences of preparations -/

/-- A call that has returned. -/
structure PreparationCall where
  preparation : Preparation
  now : ℤ
  before : Catalog
  err : Option Error
  after : Catalog

/-- The id that is asked for, as a text without a single quote: the statements are built from it. -/
def Preparation.text : Preparation → String
  | .chainId c | .epochAndChainId _ c => c

/-- A sequence of calls of the server, one after the other; a call may also panic, or be broken
    off. -/
inductive PreparationCalls (S : Server) : List PreparationCall → Catalog → Prop
  | schema : PreparationCalls S [] unpartitioned
  | returned {calls : List PreparationCall} {before after : Catalog} {p : Preparation} {now : ℤ}
      {err : Option Error} (h : PreparationCalls S calls before) (hq : '\'' ∉ p.text.toList)
      (hr : Run (S.handler now) (p.run, before) (.ret err, after)) :
      PreparationCalls S (⟨p, now, before, err, after⟩ :: calls) after
  | broken {calls : List PreparationCall} {before after : Catalog} {p : Preparation} {now : ℤ}
      {x : Prog partitionSig (Option Error)} (h : PreparationCalls S calls before)
      (hq : '\'' ∉ p.text.toList) (hr : Run (S.handler now) (p.run, before) (x, after)) :
      PreparationCalls S calls after

/-- **A prepared chain has its partitions** iff it had them, or their names were free. -/
theorem prepared_iff {calls : List PreparationCall} {cat : Catalog}
    (h : PreparationCalls S calls cat) :
    ∀ call ∈ calls, call.err = none → ∃ partitionId,
      call.preparation.partitionId call.now = .ok partitionId ∧
      ∀ table ∈ call.preparation.tables, (call.after.HasPartition table partitionId ↔
        call.before.HasPartition table partitionId ∨
          identifier (call.preparation.partitionTable call.now table) ∉ call.before.relations) := by
  induction h with
  | schema => exact fun call hm => absurd hm List.not_mem_nil
  | returned _ _ hr ih =>
    intro call hm herr
    rcases List.mem_cons.1 hm with rfl | hm
    · exact Spec.wp_result (wp_preparation _ _) hr herr
    · exact ih call hm herr
  | broken _ _ _ ih => exact ih

/-! ## A chain without partitions -/

namespace Catalog

variable {partitionTable table partitionId : String} {cat : Catalog}

theorem mem_relations_createTable :
    identifier partitionTable ∈ (cat.createTable S partitionTable table partitionId).relations := by
  unfold createTable
  dsimp only
  split_ifs with h
  · exact h
  · exact List.mem_cons_self

/-- Creating a partition whose name is taken does nothing. -/
theorem createTable_of_mem (h : identifier partitionTable ∈ cat.relations) :
    cat.createTable S partitionTable table partitionId = cat := if_pos h

@[simp] theorem insertPartitionTableInfo_relations (info : PartitionTableInfo) :
    (cat.insertPartitionTableInfo info).relations = cat.relations := by
  unfold insertPartitionTableInfo
  split_ifs <;> rfl

@[simp] theorem insertPartitionTableInfo_partitions (info : PartitionTableInfo) :
    (cat.insertPartitionTableInfo info).partitions = cat.partitions := by
  unfold insertPartitionTableInfo
  split_ifs <;> rfl

end Catalog

/-- A run whose statements succeed. -/
theorem run_createPartitionedTable {table partitionTable partitionId : String}
    {keyParts : List String} {cat : Catalog}
    (hinfo : checkPartitionedTableInfo table partitionTable partitionId keyParts = .ok ())
    (hallowed : identifier partitionTable ∈ cat.relations ∨ ¬ cat.Overlaps table partitionId) :
    Run (S.handler now) (createPartitionedTable table partitionTable partitionId keyParts, cat)
      (.ret none, (cat.createTable S partitionTable table partitionId).insertPartitionTableInfo
        (newPartitionTableInfo table partitionTable partitionId keyParts)) := by
  have hcreate : (S.handler now).allows (.createTable partitionTable table partitionId) none cat :=
    hallowed
  refine (Run.perform hcreate).seq ?_
  have hinsert (cat : Catalog) : (S.handler now).allows (.insertPartitionTableInfo
    (newPartitionTableInfo table partitionTable partitionId keyParts)) none cat := trivial
  simp only [insertNewPartitionedTableInfoIfNotExists, hinfo]
  exact (Run.perform (hinsert _)).seq .refl

/-- The run of a preparation for a week whose statements succeed. -/
theorem run_epochAndChainId {e : ℤ} {c partitionId : String} {cat : Catalog}
    (hid : (Preparation.epochAndChainId e c).partitionId now = .ok partitionId)
    (hinfo : checkPartitionedTableInfo "transaction"
      ((Preparation.epochAndChainId e c).partitionTable now "transaction") partitionId
      [toString (getEpochWeek now e), c] = .ok ())
    (hallowed : identifier ((Preparation.epochAndChainId e c).partitionTable now "transaction") ∈
      cat.relations ∨ ¬ cat.Overlaps "transaction" partitionId) :
    Run (S.handler now) ((Preparation.epochAndChainId e c).run, cat) (.ret none, (cat.createTable S
      ((Preparation.epochAndChainId e c).partitionTable now "transaction") "transaction"
      partitionId).insertPartitionTableInfo (newPartitionTableInfo "transaction"
        ((Preparation.epochAndChainId e c).partitionTable now "transaction") partitionId
        [toString (getEpochWeek now e), c])) := by
  have hnow : (S.handler now).allows .now now cat := rfl
  refine (Run.perform hnow).seq ?_
  have hid' : makePartitionIdFromKeys [toString (getEpochWeek now e), c] = .ok partitionId := hid
  simp only [createPartitionedTableForEpochWeekAndChainIdIfNotExists, hid']
  exact (run_createPartitionedTable hinfo hallowed).seq .refl

/-- A server that names one index after each partition. -/
def sampleServer : Server where
  indexNames name := [name ++ "_pkey"]
  belongs table name hb i hi := by
    rw [List.mem_singleton.1 hi, BelongsTo, String.toList_append (s := name)]
    exact hb.trans (List.prefix_append _ _)

/-- The preparations of one week for two chains. -/
def prepareDash : Preparation := .epochAndChainId 1720000000 "a-1"
def prepareDot : Preparation := .epochAndChainId 1720000000 "a.1"

/-- The name of the partition of either chain. -/
def dashTable : String := "transaction_2843_a__1"

/-- The catalog after the preparation for the first chain. -/
def dashCatalog : Catalog :=
  (unpartitioned.createTable sampleServer dashTable "transaction"
    "2843 a-1").insertPartitionTableInfo
      (newPartitionTableInfo "transaction" dashTable "2843 a-1" ["2843", "a-1"])

theorem calls_prepareDash :
    PreparationCalls sampleServer [⟨prepareDash, 0, unpartitioned, none, dashCatalog⟩]
      dashCatalog := by
  refine .returned .schema (by decide) ?_
  have hfree : ¬ unpartitioned.Overlaps "transaction" "2843 a-1" := fun ⟨p, hp, _⟩ => nomatch hp
  exact run_epochAndChainId (by decide) (by decide) (.inr hfree)

theorem prepareDash_hasPartition : dashCatalog.HasPartition "transaction" "2843 a-1" := by
  have hfree : identifier (prepareDash.partitionTable 0 "transaction") ∉
    unpartitioned.relations := by decide
  obtain ⟨partitionId, hid, h⟩ := prepared_iff calls_prepareDash _ List.mem_cons_self rfl
  have hid' : prepareDash.partitionId 0 = .ok "2843 a-1" := by decide
  obtain rfl : partitionId = "2843 a-1" := Except.ok.inj (hid.symm.trans hid')
  exact (h "transaction" List.mem_cons_self).2 (.inr hfree)

theorem dashCatalog_values : ∀ p ∈ dashCatalog.partitions, p.values = ["2843 a-1"] := by
  intro p hp
  rw [dashCatalog, Catalog.insertPartitionTableInfo_partitions, Catalog.createTable] at hp
  split_ifs at hp
  · exact absurd hp List.not_mem_nil
  · rw [List.mem_singleton.1 hp]

/-- **Two chains meet on one name**: the second one is prepared without an error, and has no
    partition. -/
theorem prepareDot_hasNoPartition : ∃ cat,
    PreparationCalls sampleServer
      [⟨prepareDot, 0, dashCatalog, none, cat⟩,
        ⟨prepareDash, 0, unpartitioned, none, dashCatalog⟩] cat ∧
    prepareDot.partitionId 0 = .ok "2843 a.1" ∧
    ¬ cat.HasPartition "transaction" "2843 a.1" := by
  have hname : identifier dashTable ∈ dashCatalog.relations := by
    rw [dashCatalog, Catalog.insertPartitionTableInfo_relations]
    exact Catalog.mem_relations_createTable
  have hrun : Run (sampleServer.handler 0) (prepareDot.run, dashCatalog)
      (.ret none, (dashCatalog.createTable sampleServer dashTable "transaction"
        "2843 a.1").insertPartitionTableInfo
          (newPartitionTableInfo "transaction" dashTable "2843 a.1" ["2843", "a.1"])) :=
    run_epochAndChainId (by decide) (by decide) (.inl hname)
  refine ⟨_, .returned calls_prepareDash (by decide) hrun, by decide, ?_⟩
  rintro ⟨p, hp, -, hvalues⟩
  rw [Catalog.insertPartitionTableInfo_partitions, Catalog.createTable_of_mem hname] at hp
  rw [dashCatalog_values p hp] at hvalues
  exact absurd hvalues (by decide)

end RollappExplorer
