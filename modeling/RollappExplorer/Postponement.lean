/-
  Which chains are active: the rule as its four readers compute it.

  A chain is out of operation when its row in `chain_info` is marked as postponed, or
  has expired.

  * `getLatestIndexedBlock`, `isChainPostponed`: the indexer;
  * `fallbehindCondition`: the filter of `get_indexing_fallbehind_chains`;
  * `excludePostponedChainCondition`: the filter of the web app;
  * `readersAgree_iff`: they agree except in the very second of the expiry.
-/
import RollappExplorer.Scenario
import RollappExplorer.Sql.Logic

namespace RollappExplorer

open Go Effect Sql

/-- A row of `chain_info`, with the columns its readers test. -/
structure ChainInfoRow where
  latestIndexedBlock : ℤ
  postponed : Option Bool
  expiryAtEpoch : Option ℤ

/-! ## The indexer -/

/-- `SELECT latest_indexed_block, COALESCE(postponed, FALSE), expiry_at_epoch` -/
def ChainInfoRow.selectLatestIndexedBlock (row : ChainInfoRow) : ℤ × Bool × Option ℤ :=
  (row.latestIndexedBlock, row.postponed.getD false, row.expiryAtEpoch)

/-- `SELECT COALESCE(postponed, FALSE), expiry_at_epoch` -/
def ChainInfoRow.selectPostponed (row : ChainInfoRow) : Bool × Option ℤ :=
  (row.postponed.getD false, row.expiryAtEpoch)

/-- `IsChainPostponed`, over the result of its query: there may be no row. -/
def isChainPostponed (now : ℤ) (query : Except Error (Option (Bool × Option ℤ))) :
    Except Error Bool :=
  match query with
  | .error err => .error err
  | .ok none => .ok false
  | .ok (some (postponed, expiryAtEpoch)) =>
    .ok (postponed || expiryAtEpoch.any fun expiry => expiry < now)

/-- The row is postponed, or has expired before `now`. -/
def ChainInfoRow.isPostponed (row : ChainInfoRow) (now : ℤ) : Bool :=
  row.postponed.getD false || row.expiryAtEpoch.any fun expiry => expiry < now

/-- A database with the row, at the time `now`. -/
def rowHandler (row : ChainInfoRow) (now : ℤ) : Handler sig Unit where
  allows
    | .selectLatestIndexedBlock, a, _ => a = .ok row.selectLatestIndexedBlock
    | .now, a, _ => a = now
    | _, _, _ => True
  effect _ _ _ := ()

variable {R : Type}

/-- `GetLatestIndexedBlock` reports the chain as not postponed. -/
def ReportsActive (d : Indexer R) (row : ChainInfoRow) (now : ℤ) : Prop :=
  ∃ height, Run (rowHandler row now) (getLatestIndexedBlock d, ()) (.ret (.ok (height, false)), ())

theorem wp_getLatestIndexedBlock (d : Indexer R) (row : ChainInfoRow) (now : ℤ) :
    (Spec.anything _).wp (rowHandler row now)
      (getLatestIndexedBlock d)
      (fun r _ => r = .ok (row.latestIndexedBlock, row.isPostponed now)) () := by
  refine Spec.wp_call_bind trivial fun a ha => ⟨trivial, ?_⟩
  obtain rfl : a = .ok row.selectLatestIndexedBlock := ha
  refine Spec.wp_call_bind trivial fun t ht => ⟨trivial, ?_⟩
  obtain rfl : t = now := ht
  rfl

theorem reportsActive_iff {d : Indexer R} {row : ChainInfoRow} {now : ℤ} :
    ReportsActive d row now ↔ row.isPostponed now = false := by
  constructor
  · rintro ⟨height, hr⟩
    have hres := Spec.wp_result (wp_getLatestIndexedBlock d row now) hr
    exact (congrArg Prod.snd (Except.ok.inj hres)).symm
  · intro h
    refine ⟨row.latestIndexedBlock, ?_⟩
    rw [← h]
    have hselect : (rowHandler row now).allows .selectLatestIndexedBlock
        (.ok row.selectLatestIndexedBlock) () := rfl
    have hnow : (rowHandler row now).allows .now now () := rfl
    exact .head (.call hselect) (.head (.call hnow) .refl)

/-! ## The database function and the web app -/

/-- The condition of `get_indexing_fallbehind_chains` on the two columns. -/
def fallbehindCondition (epochUtcNow : ℤ) (row : ChainInfoRow) : Truth :=
  (isNotTrue row.postponed).and
    ((isNull row.expiryAtEpoch).or (compare (fun expiry => epochUtcNow < expiry) row.expiryAtEpoch))

/-- `getExcludePostponedChainCondition`: a conjunction of disjunctions. -/
def excludePostponedChainCondition (unix : ℤ) : List (List (ChainInfoRow → Truth)) :=
  [[fun row => isNull row.postponed, fun row => compare (· == false) row.postponed],
    [fun row => isNull row.expiryAtEpoch,
      fun row => compare (fun expiry => unix < expiry) row.expiryAtEpoch]]

/-- The row passes the filter of the web app. -/
def passesExcludePostponed (unix : ℤ) (row : ChainInfoRow) : Bool :=
  (conj ((excludePostponedChainCondition unix).map fun alternatives =>
    disj (alternatives.map fun condition => condition row))).passes

/-- The filters keep the rows that are not postponed and do not expire up to `now`. -/
theorem passes_fallbehindCondition (row : ChainInfoRow) (now : ℤ) :
    (fallbehindCondition now row).passes =
      (!row.postponed.getD false && row.expiryAtEpoch.all fun expiry => now < expiry) := by
  obtain ⟨latest, postponed, expiry⟩ := row
  rcases postponed with _ | _ | _ <;> cases expiry <;> simp [fallbehindCondition]

theorem passesExcludePostponed_eq (row : ChainInfoRow) (now : ℤ) :
    passesExcludePostponed now row =
      (!row.postponed.getD false && row.expiryAtEpoch.all fun expiry => now < expiry) := by
  obtain ⟨latest, postponed, expiry⟩ := row
  rcases postponed with _ | _ | _ <;> cases expiry <;>
    simp [passesExcludePostponed, excludePostponedChainCondition]

/-! ## The four readers -/

/-- The four readers agree on whether the chain is active. -/
structure ReadersAgree (d : Indexer R) (row : ChainInfoRow) (now : ℤ) : Prop where
  latest : ReportsActive d row now ↔
    isChainPostponed now (.ok (some row.selectPostponed)) = .ok false
  fallbehind : isChainPostponed now (.ok (some row.selectPostponed)) = .ok false ↔
    (fallbehindCondition now row).passes = true
  web : (fallbehindCondition now row).passes = true ↔ passesExcludePostponed now row = true

/-- **The readers agree** unless the chain expires in this very second. -/
theorem readersAgree_iff (d : Indexer R) (row : ChainInfoRow) (now : ℤ) :
    ReadersAgree d row now ↔ row.postponed = some true ∨ row.expiryAtEpoch ≠ some now := by
  have hpostponed : isChainPostponed now (.ok (some row.selectPostponed)) = .ok false ↔
      row.isPostponed now = false := by
    rw [isChainPostponed, Except.ok.injEq]
    rfl
  have hweb := (passes_fallbehindCondition row now).trans (passesExcludePostponed_eq row now).symm
  have hfilter : (row.isPostponed now = false ↔ (fallbehindCondition now row).passes = true) ↔
      row.postponed = some true ∨ row.expiryAtEpoch ≠ some now := by
    rw [passes_fallbehindCondition]
    obtain ⟨latest, postponed, expiry⟩ := row
    rcases postponed with _ | _ | _ <;> cases expiry <;>
      simp [ChainInfoRow.isPostponed] <;> omega
  constructor
  · intro h
    exact hfilter.1 (hpostponed.symm.trans h.fallbehind)
  · intro h
    exact ⟨reportsActive_iff.trans hpostponed.symm, hpostponed.trans (hfilter.2 h), by rw [hweb]⟩

/-- In the second of its expiry, the indexer takes a chain for active and the database
    function does not. -/
theorem readers_disagree_at_expiry :
    ¬ ReadersAgree (sampleIndexer false) ⟨7, none, some 1720000000⟩ 1720000000 := fun h =>
  absurd (h.fallbehind.1 rfl) (by decide)

end RollappExplorer
