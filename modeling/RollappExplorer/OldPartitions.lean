/-
  The partitions of `transaction` that may be dropped (`schema.sql`).

  * `getPartitionedTransactionTablesToPrune`: the database function;
  * `EpochOf`: the epochs of a week; `OlderThanWeeks`: more than so many full weeks ago;
  * `OffersOldPartitions`: the old partitions are offered, and no others;
  * `offersOldPartitions_iff`: that is so unless an old partition meets an `INT` that
    overflows.
-/
import Mathlib.Algebra.Order.Ring.Int
import Mathlib.Tactic.Linarith
import RollappExplorer.Partitions
import RollappExplorer.Sql.Select
import RollappExplorer.Sql.Table

namespace RollappExplorer

open Go Sql

/-! ## The function -/

/-- A row of `chain_info`, with the columns the function reads. -/
structure ChainToPrune where
  chainId : String
  keepWeeksOfRecentTxs : Option ℤ

/-- `ON ci.chain_id = sub_pti.partition_key_part_2` -/
def ofChain (ci : ChainToPrune) (pti : PartitionTableInfo) : Truth :=
  Sql.compare (fun part2 => ci.chainId == part2) pti.partitionKeyPart2

/-- `GREATEST(1, COALESCE(ci.keep_weeks_of_recent_txs, 1)) + 1` -/
def keepWeeksOfRecentTxsWithBuffer (ci : ChainToPrune) : Except Error ℤ :=
  integer (max 1 (ci.keepWeeksOfRecentTxs.getD 1) + 1)

/-- `current_epoch_week - a.partition_key_part_1::INT >= a.keep_weeks_of_recent_txs_with_buffer` -/
def toPruneCondition (currentEpochWeek : ℤ) :
    ChainToPrune × Option PartitionTableInfo → Except Error Truth
  -- a chain without partitions: the difference is `NULL`
  | (_, none) => .ok none
  | (ci, some pti) => do
    let week ← castInteger pti.partitionKeyPart1
    let difference ← integer (currentEpochWeek - week)
    let keepWeeks ← keepWeeksOfRecentTxsWithBuffer ci
    return some (decide (keepWeeks ≤ difference))

/-- `get_partitioned_transaction_tables_to_prune`, when the clock of the server shows
    `serverNow`. -/
def getPartitionedTransactionTablesToPrune (serverNow : ℤ)
    (chainInfo : Table ChainToPrune.chainId)
    (partitionTableInfo : Table PartitionTableInfo.partitionTableName) (epochUtcNow : ℤ) :
    Except Error (List String) := do
  -- validate input
  failIf (86400 < (serverNow - epochUtcNow).natAbs)
    ("provided epoch UTC vs server epoch UTC has big tolerant " ++
      s!"{(serverNow - epochUtcNow).natAbs}")
  -- the division truncates, so that `FLOOR` changes nothing
  let currentEpochWeek ← integer (epochUtcNow.tdiv (86400 * 7))
  let rows ← selectWhere (toPruneCondition currentEpochWeek)
    (leftJoin ofChain chainInfo.rows
      (partitionTableInfo.rows.filter fun pti => pti.largeTableName = "transaction"))
  return rows.filterMap fun row => row.2.map (·.partitionTableName)

/-! ## What it is for -/

/-- The number of weeks for which the transactions of the chain are kept. -/
def ChainToPrune.keepWeeks (ci : ChainToPrune) : ℤ := max 1 (ci.keepWeeksOfRecentTxs.getD 1)

/-- A transaction of the epoch goes to the partition of the week; for the missing epoch, a clock
    that shows a time after 1970 decides. -/
def EpochOf (week epoch : ℤ) : Prop := ∃ clock, 0 ≤ clock ∧ getEpochWeek clock epoch = week

/-- The epoch is more than `n` full weeks before `now`. -/
def OlderThanWeeks (n now epoch : ℤ) : Prop := epoch + n * (86400 * 7) < now

section
variable (chainInfo : Table ChainToPrune.chainId)
  (partitionTableInfo : Table PartitionTableInfo.partitionTableName)

/-- The row of a partition of `transaction` for the chain. -/
structure IsTransactionPartition (ci : ChainToPrune) (pti : PartitionTableInfo) : Prop where
  chain : ci ∈ chainInfo
  info : pti ∈ partitionTableInfo
  table : pti.largeTableName = "transaction"
  part2 : pti.partitionKeyPart2 = some ci.chainId

/-- All epochs of the partition of the week are more than `n` weeks old. -/
def AllOlder (n now week : ℤ) : Prop := ∀ epoch, EpochOf week epoch → OlderThanWeeks n now epoch

/-- Only old partitions are offered, and all that are older by two more weeks. -/
structure OffersOldPartitions (serverNow now : ℤ) : Prop where
  old : ∀ names ci pti (week : ℤ),
    getPartitionedTransactionTablesToPrune serverNow chainInfo partitionTableInfo now =
      .ok names →
    IsTransactionPartition chainInfo partitionTableInfo ci pti →
    pti.partitionKeyPart1 = toString week → pti.partitionTableName ∈ names →
    AllOlder ci.keepWeeks now week
  all : ∀ ci pti (week : ℤ), IsTransactionPartition chainInfo partitionTableInfo ci pti →
    pti.partitionKeyPart1 = toString week → AllOlder (ci.keepWeeks + 2) now week →
    ∃ names, getPartitionedTransactionTablesToPrune serverNow chainInfo partitionTableInfo now =
      .ok names ∧ pti.partitionTableName ∈ names

/-- A partition is so old that it has to be offered. -/
def HasOldPartition (now : ℤ) : Prop :=
  ∃ ci pti, ∃ week : ℤ, IsTransactionPartition chainInfo partitionTableInfo ci pti ∧
    pti.partitionKeyPart1 = toString week ∧ AllOlder (ci.keepWeeks + 2) now week

/-- No `INT` overflows: neither a week, nor an age in weeks, nor the weeks to keep when one more
    is added. -/
structure NoOverflow (now : ℤ) : Prop where
  current : -2147483648 ≤ now.tdiv (86400 * 7) ∧ now.tdiv (86400 * 7) ≤ 2147483647
  week : ∀ ci pti, IsTransactionPartition chainInfo partitionTableInfo ci pti →
    ∃ week, castInteger pti.partitionKeyPart1 = .ok week ∧
      -2147483648 ≤ now.tdiv (86400 * 7) - week ∧ now.tdiv (86400 * 7) - week ≤ 2147483647
  keep : ∀ ci pti, IsTransactionPartition chainInfo partitionTableInfo ci pti →
    ci.keepWeeks < 2147483647

end

/-! ## Weeks -/

/-- The seconds of a week number, rounded towards zero. -/
theorem tdiv_week_of_nonneg {epoch : ℤ} (h : 0 ≤ epoch) :
    epoch.tdiv (86400 * 7) * (86400 * 7) ≤ epoch ∧
      epoch < (epoch.tdiv (86400 * 7) + 1) * (86400 * 7) := by
  rw [Int.tdiv_eq_ediv_of_nonneg h]
  omega

theorem tdiv_week_of_nonpos {epoch : ℤ} (h : epoch ≤ 0) :
    (epoch.tdiv (86400 * 7) - 1) * (86400 * 7) < epoch ∧
      epoch ≤ epoch.tdiv (86400 * 7) * (86400 * 7) := by
  obtain ⟨hle, hlt⟩ := tdiv_week_of_nonneg (neg_nonneg.2 h)
  rw [Int.neg_tdiv] at hle hlt
  constructor <;> linarith

/-- An epoch of a week is before its end. -/
theorem EpochOf.lt {week epoch : ℤ} (h : EpochOf week epoch) :
    epoch < (week + 1) * (86400 * 7) ∧ (week < 0 → epoch ≤ week * (86400 * 7)) := by
  obtain ⟨clock, hclock, rfl⟩ := h
  unfold getEpochWeek
  split_ifs with hzero
  · have hnonneg : 0 ≤ clock.tdiv (86400 * 7) := Int.tdiv_nonneg hclock (by decide)
    constructor
    · rw [hzero]
      positivity
    · intro hneg
      exact absurd hneg (not_lt.2 hnonneg)
  · rcases le_total 0 epoch with h | h
    · exact ⟨(tdiv_week_of_nonneg h).2,
        fun hneg => absurd hneg (not_lt.2 (Int.tdiv_nonneg h (by decide)))⟩
    · have hle := (tdiv_week_of_nonpos h).2
      exact ⟨by linarith, fun _ => hle⟩

/-- The last epoch of a week. -/
theorem exists_last_epochOf (week : ℤ) : ∃ epoch, EpochOf week epoch ∧
    (0 ≤ week → epoch = (week + 1) * (86400 * 7) - 1) ∧
    (week < 0 → epoch = week * (86400 * 7)) := by
  rcases lt_or_ge week 0 with hneg | hnonneg
  · refine ⟨week * (86400 * 7), ⟨0, le_rfl, ?_⟩, fun h => absurd hneg (not_lt.2 h), fun _ => rfl⟩
    rw [getEpochWeek, if_neg (by omega), Int.mul_tdiv_cancel _ (by decide)]
  · refine ⟨(week + 1) * (86400 * 7) - 1, ⟨0, le_rfl, ?_⟩, fun _ => rfl,
      fun h => absurd h (not_lt.2 hnonneg)⟩
    rw [getEpochWeek, if_neg (by omega), Int.tdiv_eq_ediv_of_nonneg (by omega)]
    omega

/-- A partition that is `n + 1` weeks behind the current week has only epochs that are more than
    `n` weeks old. -/
theorem allOlder_of_le {n now week : ℤ} (hn : 0 ≤ n)
    (h : n + 1 ≤ now.tdiv (86400 * 7) - week) : AllOlder n now week := by
  intro epoch hepoch
  obtain ⟨hlt, hle⟩ := hepoch.lt
  unfold OlderThanWeeks
  rcases le_total 0 now with hnow | hnow
  · have hcurrent := (tdiv_week_of_nonneg hnow).1
    linarith
  · have hcurrent := (tdiv_week_of_nonpos hnow).1
    have hepoch' := hle (by omega)
    linarith

/-- A partition whose epochs are all more than `n` weeks old is at least `n` weeks behind. -/
theorem le_of_allOlder {n now week : ℤ} (h : AllOlder n now week) :
    n ≤ now.tdiv (86400 * 7) - week := by
  obtain ⟨epoch, hepoch, hnonneg, hneg⟩ := exists_last_epochOf week
  have hold := h epoch hepoch
  unfold OlderThanWeeks at hold
  have hnow : now < (now.tdiv (86400 * 7) + 1) * (86400 * 7) := by
    rcases le_total 0 now with hnow | hnow
    · exact (tdiv_week_of_nonneg hnow).2
    · linarith [(tdiv_week_of_nonpos hnow).2]
  rcases lt_or_ge week 0 with hweek | hweek
  · rw [hneg hweek] at hold
    omega
  · rw [hnonneg hweek] at hold
    omega

/-! ## The rows -/

section
variable {chainInfo : Table ChainToPrune.chainId}
  {partitionTableInfo : Table PartitionTableInfo.partitionTableName} {serverNow now current : ℤ}
  {names : List String} {ci : ChainToPrune} {pti : PartitionTableInfo}

theorem toPruneCondition_ok_iff {truth : Truth} :
    toPruneCondition current (ci, some pti) = .ok truth ↔
      ∃ week, castInteger pti.partitionKeyPart1 = .ok week ∧
        (-2147483648 ≤ current - week ∧ current - week ≤ 2147483647) ∧
        ci.keepWeeks < 2147483647 ∧
        truth = some (decide (ci.keepWeeks + 1 ≤ current - week)) := by
  have hkeep : 1 ≤ ci.keepWeeks := le_max_left _ _
  simp only [toPruneCondition, bind_ok_iff, keepWeeksOfRecentTxsWithBuffer, integer_ok_iff]
  constructor
  · rintro ⟨week, hweek, _, ⟨rfl, hrange⟩, _, ⟨rfl, -, hhigh⟩, htruth⟩
    exact ⟨week, hweek, hrange, Int.lt_of_add_one_le hhigh, (Except.ok.inj htruth).symm⟩
  · rintro ⟨week, hweek, hrange, hhigh, rfl⟩
    have hlow : -2147483648 ≤ ci.keepWeeks + 1 := by omega
    exact ⟨week, hweek, _, ⟨rfl, hrange⟩, _, ⟨rfl, hlow, hhigh⟩, rfl⟩

theorem mem_joined : (ci, some pti) ∈ leftJoin ofChain chainInfo.rows
      (partitionTableInfo.rows.filter fun pti => pti.largeTableName = "transaction") ↔
    IsTransactionPartition chainInfo partitionTableInfo ci pti := by
  rw [mem_leftJoin, List.mem_filter, ofChain, passes_compare]
  constructor
  · rintro ⟨hchain, ⟨hinfo, htable⟩, hpart2⟩
    obtain ⟨part2, hpart2, he⟩ := (Option.any_eq_true _ _).1 hpart2
    obtain rfl := eq_of_beq he
    exact ⟨hchain, hinfo, of_decide_eq_true htable, hpart2⟩
  · rintro ⟨hchain, hinfo, htable, hpart2⟩
    refine ⟨hchain, ⟨hinfo, decide_eq_true htable⟩, ?_⟩
    rw [hpart2]
    exact beq_self_eq_true _

/-- What the function returns. -/
theorem getPartitionedTransactionTablesToPrune_ok_iff :
    getPartitionedTransactionTablesToPrune serverNow chainInfo partitionTableInfo now =
        .ok names ↔
      (serverNow - now).natAbs ≤ 86400 ∧
      (-2147483648 ≤ now.tdiv (86400 * 7) ∧ now.tdiv (86400 * 7) ≤ 2147483647) ∧
      ∃ rows, selectWhere (toPruneCondition (now.tdiv (86400 * 7)))
        (leftJoin ofChain chainInfo.rows
          (partitionTableInfo.rows.filter fun pti => pti.largeTableName = "transaction")) =
          .ok rows ∧
        names = rows.filterMap fun row => row.2.map (·.partitionTableName) := by
  unfold getPartitionedTransactionTablesToPrune
  rw [bind_unit_ok_iff, failIf_ok_iff, not_lt]
  simp only [bind_ok_iff, integer_ok_iff]
  constructor
  · rintro ⟨haccepted, _, ⟨rfl, hcurrent⟩, rows, hrows, hnames⟩
    exact ⟨haccepted, hcurrent, rows, hrows, (Except.ok.inj hnames).symm⟩
  · rintro ⟨haccepted, hcurrent, rows, hrows, rfl⟩
    exact ⟨haccepted, _, ⟨rfl, hcurrent⟩, rows, hrows, rfl⟩

/-- **The partitions that are offered.** -/
theorem mem_toPrune
    (h : getPartitionedTransactionTablesToPrune serverNow chainInfo partitionTableInfo now =
      .ok names)
    (hp : IsTransactionPartition chainInfo partitionTableInfo ci pti) :
    pti.partitionTableName ∈ names ↔ ∃ week, castInteger pti.partitionKeyPart1 = .ok week ∧
      ci.keepWeeks + 1 ≤ now.tdiv (86400 * 7) - week := by
  obtain ⟨-, -, rows, hrows, rfl⟩ := getPartitionedTransactionTablesToPrune_ok_iff.1 h
  have hm : (ci, some pti) ∈ leftJoin ofChain chainInfo.rows _ := mem_joined.2 hp
  rw [List.mem_filterMap]
  constructor
  · rintro ⟨⟨ci', _ | pti'⟩, hmem, hname⟩
    · cases hname
    obtain ⟨hjoined, truth, htruth, hpasses⟩ := (mem_selectWhere hrows).1 hmem
    have hp' := mem_joined.1 hjoined
    -- the primary keys: it is the same row
    obtain rfl : pti' = pti := Table.eq_of_key hp'.info hp.info (Option.some.inj hname)
    obtain rfl : ci' = ci := Table.eq_of_key hp'.chain hp.chain
      (Option.some.inj (hp'.part2.symm.trans hp.part2))
    obtain ⟨week, hweek, -, -, rfl⟩ := toPruneCondition_ok_iff.1 htruth
    exact ⟨week, hweek, by simpa [Truth.passes] using hpasses⟩
  · rintro ⟨week, hweek, hle⟩
    obtain ⟨truth, htruth⟩ := exists_selectWhere_iff.1 ⟨rows, hrows⟩ _ hm
    refine ⟨(ci, some pti), (mem_selectWhere hrows).2 ⟨hm, truth, htruth, ?_⟩, rfl⟩
    obtain ⟨week', hweek', -, -, rfl⟩ := toPruneCondition_ok_iff.1 htruth
    obtain rfl : week = week' := Except.ok.inj (hweek.symm.trans hweek')
    simpa [Truth.passes] using hle

/-- The function succeeds iff nothing overflows. -/
theorem exists_toPrune_iff (haccepted : (serverNow - now).natAbs ≤ 86400) :
    (∃ names, getPartitionedTransactionTablesToPrune serverNow chainInfo partitionTableInfo now =
        .ok names) ↔ NoOverflow chainInfo partitionTableInfo now := by
  simp only [getPartitionedTransactionTablesToPrune_ok_iff]
  constructor
  · rintro ⟨_, -, hcurrent, rows, hrows, -⟩
    have hrow : ∀ ci pti, IsTransactionPartition chainInfo partitionTableInfo ci pti →
        ∃ truth, toPruneCondition (now.tdiv (86400 * 7)) (ci, some pti) = .ok truth :=
      fun ci pti hp => exists_selectWhere_iff.1 ⟨rows, hrows⟩ _ (mem_joined.2 hp)
    refine ⟨hcurrent, fun ci pti hp => ?_, fun ci pti hp => ?_⟩
    · obtain ⟨_, htruth⟩ := hrow ci pti hp
      obtain ⟨week, hweek, hrange, -⟩ := toPruneCondition_ok_iff.1 htruth
      exact ⟨week, hweek, hrange⟩
    · obtain ⟨_, htruth⟩ := hrow ci pti hp
      obtain ⟨-, -, -, hkeep, -⟩ := toPruneCondition_ok_iff.1 htruth
      exact hkeep
  · intro h
    have hrows : ∀ row ∈ leftJoin ofChain chainInfo.rows
        (partitionTableInfo.rows.filter fun pti => pti.largeTableName = "transaction"),
        ∃ truth, toPruneCondition (now.tdiv (86400 * 7)) row = .ok truth := by
      rintro ⟨ci, _ | pti⟩ hm
      · exact ⟨none, rfl⟩
      · have hp := mem_joined.1 hm
        obtain ⟨week, hweek, hrange⟩ := h.week ci pti hp
        exact ⟨_, toPruneCondition_ok_iff.2 ⟨week, hweek, hrange, h.keep ci pti hp, rfl⟩⟩
    obtain ⟨rows, hrows⟩ := exists_selectWhere_iff.2 hrows
    exact ⟨_, haccepted, h.current, rows, hrows, rfl⟩

end

/-! ## Old partitions -/

/-- **The old partitions are offered, and no others,** unless one has to be offered and an `INT`
    overflows. -/
theorem offersOldPartitions_iff (chainInfo : Table ChainToPrune.chainId)
    (partitionTableInfo : Table PartitionTableInfo.partitionTableName) (serverNow now : ℤ)
    (haccepted : (serverNow - now).natAbs ≤ 86400) :
    OffersOldPartitions chainInfo partitionTableInfo serverNow now ↔
      (HasOldPartition chainInfo partitionTableInfo now →
        NoOverflow chainInfo partitionTableInfo now) := by
  constructor
  · rintro h ⟨ci, pti, week, hp, hpart1, hold⟩
    obtain ⟨names, hnames, -⟩ := h.all ci pti week hp hpart1 hold
    exact (exists_toPrune_iff haccepted).1 ⟨names, hnames⟩
  · intro h
    constructor
    case old =>
      intro names ci pti week hnames hp hpart1 hm
      obtain ⟨week', hweek', hle⟩ := (mem_toPrune hnames hp).1 hm
      rw [hpart1] at hweek'
      obtain ⟨rfl, -⟩ := castInteger_toString_ok_iff.1 hweek'
      exact allOlder_of_le (zero_le_one.trans (le_max_left _ _)) hle
    case all =>
      intro ci pti week hp hpart1 hold
      have hno := h ⟨ci, pti, week, hp, hpart1, hold⟩
      obtain ⟨names, hnames⟩ := (exists_toPrune_iff haccepted).2 hno
      obtain ⟨week', hweek', -⟩ := hno.week ci pti hp
      obtain ⟨rfl, -⟩ := castInteger_toString_ok_iff.1 (hpart1 ▸ hweek')
      have hle := le_of_allOlder hold
      exact ⟨names, hnames, (mem_toPrune hnames hp).2 ⟨_, hweek', by omega⟩⟩

/-- Where the weeks are `INT`s that are not negative, only the weeks to keep can overflow. -/
theorem noOverflow_of_weeks {chainInfo : Table ChainToPrune.chainId}
    {partitionTableInfo : Table PartitionTableInfo.partitionTableName} {now : ℤ}
    (hnow : 0 ≤ now.tdiv (86400 * 7) ∧ now.tdiv (86400 * 7) ≤ 2147483647)
    (hweeks : ∀ pti ∈ partitionTableInfo, pti.largeTableName = "transaction" →
      ∃ week : ℤ, pti.partitionKeyPart1 = toString week ∧ 0 ≤ week ∧ week ≤ 2147483647) :
    NoOverflow chainInfo partitionTableInfo now ↔
      ∀ ci pti, IsTransactionPartition chainInfo partitionTableInfo ci pti →
        ci.keepWeeks < 2147483647 := by
  constructor
  · exact NoOverflow.keep
  · intro hkeep
    refine ⟨by omega, fun ci pti hp => ?_, hkeep⟩
    obtain ⟨week, hpart1, hlow, hhigh⟩ := hweeks pti hp.info hp.table
    refine ⟨week, ?_, by omega⟩
    rw [hpart1, castInteger_toString_ok_iff]
    exact ⟨rfl, by omega⟩

/-! ## Weeks without end -/

/-- Two chains; one keeps its transactions for so many weeks. -/
def twoChains (keepWeeksOfRecentTxs : ℤ) : Table ChainToPrune.chainId :=
  ⟨[⟨"rollappa_1-1", some keepWeeksOfRecentTxs⟩, ⟨"rollappb_2-1", none⟩],
    (by decide : ["rollappa_1-1", "rollappb_2-1"].Nodup)⟩

/-- The partitions of the two chains for the week 2800. -/
def twoPartitions : Table PartitionTableInfo.partitionTableName :=
  ⟨["rollappa_1-1", "rollappb_2-1"].map fun chainId =>
    newPartitionTableInfo "transaction"
      (getPartitionedTableNameBySaltInt64AndChainId "transaction" 2800 chainId)
      ("2800 " ++ chainId) [toString (2800 : ℤ), chainId], by decide⟩

theorem twoPartitions_week :
    ∀ pti ∈ twoPartitions, pti.partitionKeyPart1 = toString (2800 : ℤ) := by
  intro pti hm
  obtain ⟨_, -, rfl⟩ := List.mem_map.1 hm
  rfl

/-- The partitions are offered if the first chain keeps its transactions for five weeks. -/
theorem offersOldPartitions_fiveWeeks :
    OffersOldPartitions (twoChains 5) twoPartitions 1720000000 1720000000 := by
  refine (offersOldPartitions_iff (twoChains 5) twoPartitions 1720000000 1720000000
    (by decide)).2 fun _ => (noOverflow_of_weeks (by decide) fun pti hm _ =>
      ⟨2800, twoPartitions_week pti hm, by decide⟩).2 fun ci pti hp => ?_
  have hkeep : ∀ ci ∈ (twoChains 5).rows, ci.keepWeeks < 2147483647 := by decide
  exact hkeep ci hp.chain

/-- No partition is offered if the first chain keeps its transactions for the greatest number of
    weeks. -/
theorem not_offersOldPartitions :
    ¬ ∀ (chainInfo : Table ChainToPrune.chainId)
        (partitionTableInfo : Table PartitionTableInfo.partitionTableName) (serverNow now : ℤ),
      (serverNow - now).natAbs ≤ 86400 →
        OffersOldPartitions chainInfo partitionTableInfo serverNow now := by
  intro h
  have herror : getPartitionedTransactionTablesToPrune 1720000000 (twoChains 2147483647)
      twoPartitions 1720000000 = .error "integer out of range" := by decide
  have hp : IsTransactionPartition (twoChains 2147483647) twoPartitions ⟨"rollappb_2-1", none⟩
      (newPartitionTableInfo "transaction" "transaction_2800_rollappb_2__1" "2800 rollappb_2-1"
        ["2800", "rollappb_2-1"]) :=
    ⟨.tail _ (.head _), .tail _ (.head _), rfl, rfl⟩
  obtain ⟨names, hnames, -⟩ := (h (twoChains 2147483647) twoPartitions 1720000000 1720000000
    (by decide)).all _ _ 2800 hp rfl (allOlder_of_le (by decide) (by decide))
  rw [herror] at hnames
  cases hnames

end RollappExplorer
