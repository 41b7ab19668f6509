/-
  The text of the statements that create partitions (`database/postgres/partitioning.go`).

  The name of a partition is escaped, but its id is put between quotes as it is.

  * `createTableText`: the text; `CreatesPartition`: what it should be for the server;
  * `createsPartition_iff`: it is that iff the id has neither a quote nor the character NUL;
  * `safeDdl_iff`: when that holds of all partitions of a chain.
-/
import RollappExplorer.Partitions
import RollappExplorer.Sql.Lexer

namespace RollappExplorer

open Go Effect Sql

/-! ## The text -/

/-- `CREATE TABLE IF NOT EXISTS %s PARTITION OF %s FOR VALUES IN ('%s')` -/
def createTableText (partitionTable table partitionId : String) : String :=
  "CREATE TABLE IF NOT EXISTS " ++ partitionTable ++ " PARTITION OF " ++ table ++
    " FOR VALUES IN ('" ++ partitionId ++ "')"

/-- The statement of `createPartitionedTableForChainIdIfNotExists`. -/
def createPartitionedTableForChainIdText (table chainId : String) : String :=
  createTableText (getPartitionedTableNameByChainId table chainId) table chainId

/-- The statement of `createPartitionedTableForEpochWeekAndChainIdIfNotExists`. -/
def createPartitionedTableForEpochWeekAndChainIdText (table : String) (epochWeek : ℤ)
    (chainId : String) : Except String String := do
  let partitionId ← makePartitionIdFromKeys [toString epochWeek, chainId]
  return createTableText (getPartitionedTableNameBySaltInt64AndChainId table epochWeek chainId)
    table partitionId

/-! ## What it is for -/

/-- `[A-Za-z0-9_]+`, not beginning with a digit -/
structure IsIdentifier (name : List Char) : Prop where
  nonempty : name ≠ []
  head : ∀ c ∈ name.head?, c.isDigit = false
  chars : ∀ c ∈ name, isWord c = true

/-- The tokens up to the value. -/
def headTokens (name table : List Char) : List Token :=
  [.word "CREATE".toList, .word "TABLE".toList, .word "IF".toList, .word "NOT".toList,
    .word "EXISTS".toList, .word name, .word "PARTITION".toList, .word "OF".toList, .word table,
    .word "FOR".toList, .word "VALUES".toList, .word "IN".toList, .symbol '(']

/-- The text is one statement, which creates a partition of the table for the one value. -/
def CreatesPartition (table value text : String) : Prop :=
  ∃ name, IsIdentifier name ∧
    lex text = some (headTokens name table.toList ++ [.literal value.toList, .symbol ')'])

/-- The statements for the partitions of the chain, and of the chain and the week. -/
structure SafeDdl (chainId : String) (epochWeek : ℤ) : Prop where
  byChainId : ∀ table ∈ getTablesPartitionedByChainId,
    CreatesPartition table chainId (createPartitionedTableForChainIdText table chainId)
  byEpochWeek : ∀ table ∈ getTablesPartitionedByEpochWeekAndChainId, ∃ partitionId text,
    makePartitionIdFromKeys [toString epochWeek, chainId] = .ok partitionId ∧
    createPartitionedTableForEpochWeekAndChainIdText table epochWeek chainId = .ok text ∧
    CreatesPartition table partitionId text

/-- The text has neither a quote nor the character NUL. -/
def Quotable (s : String) : Prop := ∀ c ∈ s.toList, c ≠ '\'' ∧ c ≠ '\x00'

/-! ## Reading the text -/

section
variable {partitionTable table partitionId : String}

theorem isWordChar_of_isWord {c : Char} (h : isWord c = true) : isWordChar c = true := by
  unfold isWordChar
  rw [show (c.isAlphanum || c == '_') = true from h]
  rfl

/-- The text is read up to the quote before the id. -/
theorem run_createTableText (hname : IsIdentifier partitionTable.toList)
    (htable : IsIdentifier table.toList) :
    LexState.run ⟨[], .blank⟩ (createTableText partitionTable table partitionId).toList =
      LexState.run ⟨headTokens partitionTable.toList table.toList, .literal []⟩
        (partitionId.toList ++ ['\'', ')']) := by
  have htext : (createTableText partitionTable table partitionId).toList =
      "CREATE TABLE IF NOT EXISTS ".toList ++ ((partitionTable.toList ++ [' ']) ++
        ("PARTITION OF ".toList ++ ((table.toList ++ [' ']) ++
          ("FOR VALUES IN ('".toList ++ (partitionId.toList ++ ['\'', ')']))))) := by
    unfold createTableText
    simp
  have hcreate : LexState.run ⟨[], .blank⟩ "CREATE TABLE IF NOT EXISTS ".toList =
      ⟨[.word "CREATE".toList, .word "TABLE".toList, .word "IF".toList, .word "NOT".toList,
        .word "EXISTS".toList], .blank⟩ := by decide +kernel
  have hpartition : LexState.run ⟨[], .blank⟩ "PARTITION OF ".toList =
      ⟨[.word "PARTITION".toList, .word "OF".toList], .blank⟩ := by decide +kernel
  have hvalues : LexState.run ⟨[], .blank⟩ "FOR VALUES IN ('".toList =
      ⟨[.word "FOR".toList, .word "VALUES".toList, .word "IN".toList, .symbol '('],
        .literal []⟩ := by decide +kernel
  have hname' : ∀ tokens, LexState.run ⟨tokens, .blank⟩ (partitionTable.toList ++ [' ']) =
      ⟨tokens ++ [.word partitionTable.toList], .blank⟩ := fun tokens =>
    LexState.run_word hname.nonempty fun c hc => isWordChar_of_isWord (hname.chars c hc)
  have htable' : ∀ tokens, LexState.run ⟨tokens, .blank⟩ (table.toList ++ [' ']) =
      ⟨tokens ++ [.word table.toList], .blank⟩ := fun tokens =>
    LexState.run_word htable.nonempty fun c hc => isWordChar_of_isWord (htable.chars c hc)
  rw [htext]
  exact (LexState.run_append_of hcreate _).trans <|
    (LexState.run_append_of (hname' _) _).trans <|
    (LexState.run_append_of (LexState.run_of_nil hpartition _) _).trans <|
    (LexState.run_append_of (htable' _) _).trans <|
    LexState.run_append_of (LexState.run_of_nil hvalues _) _

/-- **The text creates the partition** iff the id has neither a quote nor the character NUL. -/
theorem createsPartition_iff (hname : IsIdentifier partitionTable.toList)
    (htable : IsIdentifier table.toList) :
    CreatesPartition table partitionId (createTableText partitionTable table partitionId) ↔
      Quotable partitionId := by
  unfold CreatesPartition lex
  rw [run_createTableText hname htable]
  constructor
  · rintro ⟨name, -, h⟩
    obtain ⟨more, hmore, he⟩ := LexState.finish_run_eq h
    -- the tokens after the head
    obtain ⟨-, rfl⟩ := List.append_inj he rfl
    intro c hc
    constructor
    · rintro rfl
      -- the id takes its own length, and one more for the quote
      have hle := LexState.tokensWeight_le hmore
      have hcount : 0 < partitionId.toList.count '\'' := List.count_pos_iff.2 hc
      simp only [LexState.tokensWeight, LexState.tokenWeight, LexState.literalWeight,
        List.length_append, List.length_cons, List.length_nil] at hle
      omega
    · rintro rfl
      rw [LexState.finish_run_nul _ (List.mem_append_left _ hc)] at hmore
      cases hmore
  · intro h
    refine ⟨partitionTable.toList, hname, ?_⟩
    have hsplit : partitionId.toList ++ ['\'', ')'] = (partitionId.toList ++ ['\'']) ++ [')'] := by
      simp
    rw [hsplit, LexState.run_append, LexState.run_literal h, List.nil_append]
    simp [LexState.run, LexState.step, beginToken, LexState.finish, isBlank, isWordChar]

end

/-! ## Names -/

theorem isWord_escapeChainId {chainId : String} {c : Char}
    (hc : c ∈ (escapeChainId chainId).toList) : isWord c = true := by
  rw [escapeChainId, String.toList_ofList] at hc
  obtain ⟨d, -, hd⟩ := List.mem_flatMap.1 hc
  split_ifs at hd with hword
  · rwa [List.mem_singleton.1 hd]
  · exact List.all_eq_true.1 (show ['_', '_'].all isWord = true from rfl) c hd

theorem isWord_of_isDigit {c : Char} (h : c.isDigit = true) : isWord c = true := by
  simp [isWord, Char.isAlphanum, h]

/-- A name that goes on with further characters of words. -/
theorem IsIdentifier.append {name l : List Char} (h : IsIdentifier name)
    (hl : ∀ c ∈ l, isWord c = true) : IsIdentifier (name ++ l) := by
  refine ⟨List.append_ne_nil_of_left_ne_nil h.nonempty l, fun c hc => ?_, fun c hc => ?_⟩
  · rw [List.head?_append_of_ne_nil _ h.nonempty] at hc
    exact h.head c hc
  · rcases List.mem_append.1 hc with hc | hc
    · exact h.chars c hc
    · exact hl c hc

theorem isIdentifier_tables : ∀ table ∈ getTablesPartitionedByChainId ++
    getTablesPartitionedByEpochWeekAndChainId, IsIdentifier (table ++ "_").toList ∧
      IsIdentifier table.toList := by
  intro table hm
  have hall : ∀ table ∈ getTablesPartitionedByChainId ++
      getTablesPartitionedByEpochWeekAndChainId,
      table.toList ≠ [] ∧ table.toList.head?.any Char.isDigit = false ∧
        table.toList.all isWord = true := by decide
  obtain ⟨hne, hhead, hchars⟩ := hall table hm
  have htable : IsIdentifier table.toList := by
    refine ⟨hne, fun c hc => ?_, List.all_eq_true.1 hchars⟩
    rw [Option.mem_def] at hc
    rwa [hc] at hhead
  rw [String.toList_append]
  exact ⟨htable.append (List.all_eq_true.1 rfl), htable⟩

theorem isIdentifier_nameByChainId {table : String} (hm : table ∈ getTablesPartitionedByChainId)
    (chainId : String) : IsIdentifier (getPartitionedTableNameByChainId table chainId).toList := by
  rw [getPartitionedTableNameByChainId, String.toList_append]
  exact (isIdentifier_tables table (List.mem_append_left _ hm)).1.append
    fun c hc => isWord_escapeChainId hc

theorem isIdentifier_nameByEpochWeek {table : String}
    (hm : table ∈ getTablesPartitionedByEpochWeekAndChainId) {epochWeek : ℤ} (hw : 0 ≤ epochWeek)
    (chainId : String) : IsIdentifier
      (getPartitionedTableNameBySaltInt64AndChainId table epochWeek chainId).toList := by
  rw [getPartitionedTableNameBySaltInt64AndChainId, String.toList_append]
  refine (isIdentifier_tables table (List.mem_append_right _ hm)).1.append fun c hc => ?_
  rw [String.toList_append, String.toList_append] at hc
  rcases List.mem_append.1 hc with hc | hc
  · rcases List.mem_append.1 hc with hc | hc
    · rw [toList_toString, if_neg (not_lt.2 hw)] at hc
      exact isWord_of_isDigit (Nat.isDigit_of_mem_toDigits (by decide) (by decide) hc)
    · rw [List.mem_singleton.1 hc]
      rfl
  · exact isWord_escapeChainId hc

/-- The sign of a negative week ends the name. -/
theorem not_createsPartition_of_neg {epochWeek : ℤ} (hw : epochWeek < 0)
    (chainId partitionId : String) : ¬ CreatesPartition "transaction" partitionId
      (createTableText
        (getPartitionedTableNameBySaltInt64AndChainId "transaction" epochWeek chainId)
        "transaction" partitionId) := by
  rintro ⟨name, -, h⟩
  obtain ⟨d, ds, hdigits⟩ := List.exists_cons_of_ne_nil
    (Nat.toDigits_ne_nil (n := epochWeek.natAbs) (b := 10))
  have hd : d.isDigit = true := Nat.isDigit_of_mem_toDigits (by decide) (by decide)
    (hdigits ▸ List.mem_cons_self)
  obtain ⟨rest, htext⟩ : ∃ rest, (createTableText
      (getPartitionedTableNameBySaltInt64AndChainId "transaction" epochWeek chainId)
      "transaction" partitionId).toList =
      "CREATE TABLE IF NOT EXISTS transaction_-".toList ++ d :: rest := by
    have hweek : (toString epochWeek).toList = '-' :: d :: ds := by
      rw [toList_toString, if_pos hw, hdigits]
    unfold createTableText getPartitionedTableNameBySaltInt64AndChainId
    simp only [String.toList_append, hweek]
    exact ⟨_, rfl⟩
  have hrun : LexState.run ⟨[], .blank⟩ "CREATE TABLE IF NOT EXISTS transaction_-".toList =
      ⟨[.word "CREATE".toList, .word "TABLE".toList, .word "IF".toList, .word "NOT".toList,
        .word "EXISTS".toList, .word "transaction_".toList], .dash⟩ := by decide +kernel
  have hstep : ∀ tokens, LexState.step ⟨tokens, .dash⟩ d =
      ⟨tokens ++ [.symbol '-'], .word [d]⟩ := by
    intro tokens
    have hword := isWordChar_of_isWord (isWord_of_isDigit hd)
    obtain ⟨hnul, hblank⟩ := LexState.of_isWordChar hword
    have hdash : d ≠ '-' := by
      rintro rfl
      exact absurd hd (by decide)
    show (if _ then _ else beginToken _ _) = _
    rw [if_neg hdash, beginToken, if_neg hnul, hblank, if_neg Bool.false_ne_true, if_pos hword]
  rw [lex, htext, LexState.run_append_of hrun, LexState.run_cons, hstep] at h
  obtain ⟨more, -, he⟩ := LexState.finish_run_eq h
  -- the seventh token
  have hseventh : some (Token.word "PARTITION".toList) = some (Token.symbol '-') :=
    congrArg (fun tokens => tokens[6]?) he
  cases hseventh

/-! ## All statements of a chain -/

theorem quotable_partitionId {epochWeek : ℤ} {chainId : String} (h : Quotable chainId) :
    Quotable (toString epochWeek ++ " " ++ trimSpace chainId) := by
  intro c hc
  rw [String.toList_append, String.toList_append, toList_trimSpace] at hc
  rcases List.mem_append.1 hc with hc | hc
  · rcases List.mem_append.1 hc with hc | hc
    · rcases mem_toString hc with hdigit | rfl
      · constructor <;> (rintro rfl; exact absurd hdigit (by decide))
      · decide
    · rw [List.mem_singleton.1 hc]
      decide
  · exact h c ((trim_sublist _).subset hc)

/-- **The statements are safe** iff the chain id has neither a quote nor the character NUL and is
    not blank, and the week is not negative. -/
theorem safeDdl_iff (chainId : String) (epochWeek : ℤ) : SafeDdl chainId epochWeek ↔
    Quotable chainId ∧ 0 ≤ epochWeek ∧ trimSpace chainId ≠ "" := by
  constructor
  · intro h
    have haccount : "account" ∈ getTablesPartitionedByChainId := List.mem_cons_self
    have htransaction : "transaction" ∈ getTablesPartitionedByEpochWeekAndChainId :=
      List.mem_singleton_self _
    obtain ⟨partitionId, text, hid, htext, hcreates⟩ := h.byEpochWeek _ htransaction
    refine ⟨?_, ?_, (makePartitionIdFromKeys_week_ok_iff.1 hid).1⟩
    · exact (createsPartition_iff (isIdentifier_nameByChainId haccount chainId)
        (isIdentifier_tables _ (List.mem_append_left _ haccount)).2).1 (h.byChainId _ haccount)
    · by_contra hneg
      rw [createPartitionedTableForEpochWeekAndChainIdText, hid] at htext
      obtain rfl := Except.ok.inj htext
      exact not_createsPartition_of_neg (not_le.1 hneg) chainId partitionId hcreates
  · rintro ⟨hquotable, hweek, htrim⟩
    constructor
    case byChainId =>
      intro table hm
      exact (createsPartition_iff (isIdentifier_nameByChainId hm chainId)
        (isIdentifier_tables _ (List.mem_append_left _ hm)).2).2 hquotable
    case byEpochWeek =>
      intro table hm
      have hid : makePartitionIdFromKeys [toString epochWeek, chainId] = .ok _ :=
        makePartitionIdFromKeys_week htrim
      refine ⟨_, _, hid, ?_, (createsPartition_iff (isIdentifier_nameByEpochWeek hm hweek chainId)
        (isIdentifier_tables _ (List.mem_append_right _ hm)).2).2 (quotable_partitionId hquotable)⟩
      rw [createPartitionedTableForEpochWeekAndChainIdText, hid]
      rfl

/-! ## A chain id with a quote -/

/-- A chain whose id ends the string constant, and goes on with a statement. -/
def chainWithQuote : ChainConfig := ⟨"a'); DROP TABLE account; --", ["https://be.example"], false⟩

/-- The id goes into the statement as it is. -/
theorem not_safeDdl : ¬ ∀ (isUrl : String → Bool) (cc : ChainConfig) (epochWeek : ℤ),
    cc.validate isUrl = none → SafeDdl cc.chainId epochWeek := by
  intro h
  have haccount : "account" ∈ getTablesPartitionedByChainId := List.mem_cons_self
  have hcreates := (h (fun _ => true) chainWithQuote 2843 (by decide)).byChainId _ haccount
  have hquotable := (createsPartition_iff (isIdentifier_nameByChainId haccount _)
    (isIdentifier_tables _ (List.mem_append_left _ haccount)).2).1 hcreates
  have hm : '\'' ∈ chainWithQuote.chainId.toList := by decide
  exact (hquotable _ hm).1 rfl

example : lex (createPartitionedTableForChainIdText "account" "a'); DROP TABLE t; --") =
    some (headTokens "account_a________DROP__TABLE__t________".toList "account".toList ++
      [.literal ['a'], .symbol ')', .symbol ';', .word "DROP".toList, .word "TABLE".toList,
        .word ['t'], .symbol ';']) := by decide +kernel

/-! ## The calls -/

/-- The text of a statement that creates a partition. -/
def PartitionCall.ddl : PartitionCall → Option String
  | .createTable partitionTable table partitionId =>
    some (createTableText partitionTable table partitionId)
  | .now | .insertPartitionTableInfo _ => none

/-- The first call of `createPartitionedTableForChainIdIfNotExists` is its statement. -/
theorem createPartitionedTableForChainId_call (table chainId : String) : ∃ call k,
    createPartitionedTableForChainIdIfNotExists table chainId = .call call k ∧
      call.ddl = some (createPartitionedTableForChainIdText table chainId) :=
  ⟨_, _, rfl, rfl⟩

/-- The first call of `createPartitionedTableForEpochWeekAndChainIdIfNotExists` is its statement,
    if it has one; otherwise it panics. -/
theorem createPartitionedTableForEpochWeekAndChainId_call (table : String) (epochWeek : ℤ)
    (chainId : String) :
    match createPartitionedTableForEpochWeekAndChainIdText table epochWeek chainId with
    | .error msg =>
      createPartitionedTableForEpochWeekAndChainIdIfNotExists table epochWeek chainId = .panic msg
    | .ok text => ∃ call k,
      createPartitionedTableForEpochWeekAndChainIdIfNotExists table epochWeek chainId =
        .call call k ∧ call.ddl = some text := by
  unfold createPartitionedTableForEpochWeekAndChainIdText
    createPartitionedTableForEpochWeekAndChainIdIfNotExists
  cases makePartitionIdFromKeys [toString epochWeek, chainId] with
  | error msg => rfl
  | ok partitionId => exact ⟨_, _, rfl, rfl⟩

end RollappExplorer
