/-
  The life of an indexer (`defaultIndexer.Start`) that is shut down at some moment.

  `Start` sees the shutdown flag only where it tests it, so the moment is given by the
  number of tests that come before it.

  * `start`: the loops of `Start`, each over the answers it gets;
  * `start_survives_iff`: when `Start` returns, and never panics.
-/
import RollappExplorer.Effect.Loop
import RollappExplorer.Records
import RollappExplorer.Response

namespace RollappExplorer

open Go Effect

/-! ## Answers -/

/-- What a pass of the loop that prepares the record of the chain learns: the active URL,
    the chain info of the refreshed URL, or else of a query, and the result of
    `InsertOrUpdateRecordChainInfo`. -/
structure ChainInfoAnswers where
  activeJsonRpcUrl : String
  refreshed : Option ResponseBeGetChainInfo
  queried : Except Error ResponseBeGetChainInfo
  insertOrUpdate : Except Error Unit

/-- The answers that `Start` gets, by the pass of the loop that asks; `GetBech32Config`
    returns a valid configuration when it returns no error. -/
structure StartAnswers where
  isChainPostponed : ℕ → Except Error Bool
  preparePartitionedTables : ℕ → Except Error Unit
  chainInfo : ℕ → ChainInfoAnswers
  getBech32Config : ℕ → Bech32PrefixOfChainInfo × Option Error
  valid : ∀ i, (getBech32Config i).2 = none → (getBech32Config i).1.validateBasic = .ok ()

/-! ## The loops -/

variable (chainId : String) (e : StartAnswers) (t : ℕ)

/-- The loop that waits while the chain is postponed; it does not test the flag. -/
def checkPostponed (i : ℕ) : ℕ ⊕ Unit :=
  match e.isChainPostponed i with
  | .error _ | .ok true => .inl (i + 1)
  | .ok false => .inr ()

/-- The loop that prepares the partitioned tables; it does not test the flag. -/
def preparePartitionedTables (i : ℕ) : ℕ ⊕ Unit :=
  match e.preparePartitionedTables i with
  | .error _ => .inl (i + 1)
  | .ok () => .inr ()

/-- `genericLoop` with the insertion of the record of the chain; the record itself can
    always be built, as maps of strings can be marshalled. -/
def prepareChainInfo (a : ChainInfoAnswers) : Except Error Unit :=
  if len a.activeJsonRpcUrl = 0 then .error "no active json-rpc url"
  else do
    let info ← match a.refreshed with
      | some info => .ok info
      | none => a.queried
    failIf (info.chainId ≠ chainId) "chain-id mismatch"
    a.insertOrUpdate

/-- The flag, when `tests` tests have come before; it is raised after `t` of them. -/
def isShuttingDown (tests : ℕ) : Bool := t ≤ tests

/-- The loop that prepares the record of the chain; its result is the number of tests. -/
def prepareRecord (i : ℕ) : ℕ ⊕ ℕ :=
  if isShuttingDown t i then .inr (i + 1)
  else match prepareChainInfo chainId (e.chainInfo i) with
    | .error _ => .inl (i + 1)
    | .ok () => .inr (i + 1)

/-- The loop that reads the configuration, after `tests` tests. -/
def readBech32Cfg (tests : ℕ) :
    ℕ × Bech32PrefixOfChainInfo → (ℕ × Bech32PrefixOfChainInfo) ⊕ (Bech32PrefixOfChainInfo × ℕ)
  | (i, bech32Cfg) =>
    if isShuttingDown t (tests + i) then .inr (bech32Cfg, tests + i + 1)
    else match e.getBech32Config i with
      | (bech32Cfg, some _) => .inl (i + 1, bech32Cfg)
      | (bech32Cfg, none) => .inr (bech32Cfg, tests + i + 1)

/-- The main loop, as far as the flag goes: every iteration ends. -/
def iterateUntilShutdown (tests : ℕ) : ℕ ⊕ Unit :=
  if isShuttingDown t tests then .inr () else .inl (tests + 1)

inductive StartOutcome where
  | returned
  | panicked (err : Error)

/-- `Start`; nothing ever sets the flag that `ensureNotStartedRL` checks. -/
def start : Effect.Computation StartOutcome := do
  loop (checkPostponed e) 0
  loop (preparePartitionedTables e) 0
  let tests ← loop (prepareRecord chainId e t) 0
  let (bech32Cfg, tests) ← loop (readBech32Cfg e t tests) (0, ⟨"", "", ""⟩)
  match bech32Cfg.validateBasic with
  | .error err => return .panicked err
  | .ok () =>
    loop (iterateUntilShutdown t) tests
    return .returned

/-! ## The ends of the loops -/

variable {chainId e t}

theorem returns_checkPostponed {u : Unit} :
    (loop (checkPostponed e) 0).Returns u ↔ ∃ i, e.isChainPostponed i = .ok false := by
  have hagain : ∀ i, e.isChainPostponed i ≠ .ok false → checkPostponed e i = .inl (i + 1) := by
    intro i hi
    unfold checkPostponed
    rcases he : e.isChainPostponed i with err | _ | _
    · rfl
    · exact absurd he hi
    · rfl
  have hleave : ∀ i, e.isChainPostponed i = .ok false → checkPostponed e i = .inr () := by
    intro i hi
    rw [checkPostponed, hi]
  rw [returns_wait_iff (s := fun i => i) hleave hagain]
  exact and_iff_left rfl

theorem returns_preparePartitionedTables {u : Unit} :
    (loop (preparePartitionedTables e) 0).Returns u ↔
      ∃ i, e.preparePartitionedTables i = .ok () := by
  have hagain : ∀ i, e.preparePartitionedTables i ≠ .ok () →
      preparePartitionedTables e i = .inl (i + 1) := by
    intro i hi
    unfold preparePartitionedTables
    rcases he : e.preparePartitionedTables i with err | ⟨⟩
    · rfl
    · exact absurd he hi
  have hleave : ∀ i, e.preparePartitionedTables i = .ok () →
      preparePartitionedTables e i = .inr () := by
    intro i hi
    rw [preparePartitionedTables, hi]
  rw [returns_wait_iff (s := fun i => i) hleave hagain]
  exact and_iff_left rfl

/-- The pass of the record loop with the number `i` inserts the record. -/
def Prepares (chainId : String) (e : StartAnswers) (i : ℕ) : Prop :=
  prepareChainInfo chainId (e.chainInfo i) = .ok ()

theorem returns_prepareRecord {k : ℕ} :
    (loop (prepareRecord chainId e t) 0).Returns k ↔
      ∃ c, IsFirst (fun i => t ≤ i ∨ Prepares chainId e i) c ∧ k = c + 1 := by
  refine returns_loop_iff (s := fun i => i) (fun i hi => ?_) fun i hi => ?_
  · rw [prepareRecord]
    split_ifs with hflag
    · rfl
    · have hok := hi.resolve_left fun h => hflag (decide_eq_true h)
      rw [Prepares] at hok
      rw [hok]
  · obtain ⟨hflag, hok⟩ := not_or.1 hi
    rw [prepareRecord, isShuttingDown, if_neg (by simpa using hflag)]
    rcases he : prepareChainInfo chainId (e.chainInfo i) with err | ⟨⟩
    · rfl
    · exact absurd he hok

/-- The configuration with which the pass `i` of the loop that reads it begins. -/
def lastBech32Cfg (e : StartAnswers) : ℕ → Bech32PrefixOfChainInfo
  | 0 => ⟨"", "", ""⟩
  | i + 1 => (e.getBech32Config i).1

theorem returns_readBech32Cfg {tests : ℕ} {r : Bech32PrefixOfChainInfo × ℕ} :
    (loop (readBech32Cfg e t tests) (0, ⟨"", "", ""⟩)).Returns r ↔
      ∃ j, IsFirst (fun j => t ≤ tests + j ∨ (e.getBech32Config j).2 = none) j ∧
        r = (if t ≤ tests + j then lastBech32Cfg e j else (e.getBech32Config j).1,
          tests + j + 1) := by
  refine returns_loop_iff (s := fun i => (i, lastBech32Cfg e i)) (fun j hj => ?_) fun j hj => ?_
  · rw [readBech32Cfg, isShuttingDown]
    by_cases hflag : t ≤ tests + j
    · rw [if_pos (decide_eq_true hflag), if_pos hflag]
    · have hok := hj.resolve_left hflag
      rw [if_neg (by simpa using hflag), if_neg hflag]
      rcases he : e.getBech32Config j with ⟨bech32Cfg, _ | err⟩
      · rfl
      · rw [he] at hok
        cases hok
  · obtain ⟨hflag, hok⟩ := not_or.1 hj
    rw [readBech32Cfg, isShuttingDown, if_neg (by simpa using hflag)]
    rcases he : e.getBech32Config j with ⟨bech32Cfg, _ | err⟩
    · rw [he] at hok
      exact absurd rfl hok
    · rw [lastBech32Cfg, he]

theorem returns_iterateUntilShutdown {tests : ℕ} {u : Unit} :
    (loop (iterateUntilShutdown t) tests).Returns u := by
  have hleave : ∀ i, t ≤ tests + i → iterateUntilShutdown t (tests + i) = .inr () := fun i hi =>
    if_pos (decide_eq_true hi)
  have hagain : ∀ i, ¬ t ≤ tests + i →
      iterateUntilShutdown t (tests + i) = .inl (tests + (i + 1)) := fun i hi =>
    if_neg (by simpa [isShuttingDown] using hi)
  exact (returns_wait_iff (s := fun i => tests + i) hleave hagain).2
    ⟨⟨t, Nat.le_add_left t tests⟩, rfl⟩

/-! ## The end of `Start` -/

/-- What `Start` needs of its answers to survive a shutdown after `t` tests of the flag: the
    chain is not postponed forever and its tables are created, the record of the chain is
    inserted before the flag is seen, and so is a configuration read, which is valid even if
    the query for it failed. -/
structure SurvivesShutdown (chainId : String) (e : StartAnswers) (t : ℕ) : Prop where
  notPostponed : ∃ i, e.isChainPostponed i = .ok false
  partitioned : ∃ i, e.preparePartitionedTables i = .ok ()
  configured : ∃ c, IsFirst (Prepares chainId e) c ∧
    ((∃ j, c + 1 + j < t ∧ (e.getBech32Config j).2 = none) ∨
      ∃ j, c + 1 + j + 1 = t ∧ (e.getBech32Config j).1.validateBasic = .ok ())

/-- The configuration that `Start` validates, with the number of tests before it. -/
def Configures (chainId : String) (e : StartAnswers) (t : ℕ)
    (r : Bech32PrefixOfChainInfo × ℕ) : Prop :=
  ∃ tests, (loop (prepareRecord chainId e t) 0).Returns tests ∧
    (loop (readBech32Cfg e t tests) (0, ⟨"", "", ""⟩)).Returns r

/-- The record is inserted before the flag is seen, and a valid configuration read. -/
theorem configures_valid {r : Bech32PrefixOfChainInfo × ℕ} (h : Configures chainId e t r)
    (hvalid : r.1.validateBasic = .ok ()) :
    ∃ c, IsFirst (Prepares chainId e) c ∧
      ((∃ j, c + 1 + j < t ∧ (e.getBech32Config j).2 = none) ∨
        ∃ j, c + 1 + j + 1 = t ∧ (e.getBech32Config j).1.validateBasic = .ok ()) := by
  obtain ⟨tests, htests, hr⟩ := h
  obtain ⟨c, hc, rfl⟩ := returns_prepareRecord.1 htests
  obtain ⟨j, hj, rfl⟩ := returns_readBech32Cfg.1 hr
  -- the empty configuration is not valid
  have hpos : t ≤ c + 1 + j → j ≠ 0 := by
    rintro hflag rfl
    dsimp only at hvalid
    rw [if_pos hflag] at hvalid
    cases hvalid
  have hct : ¬ t ≤ c := by
    intro hflag
    have hzero : j ≠ 0 := hpos (by omega)
    exact hj.first 0 (Nat.pos_of_ne_zero hzero) (Or.inl (by omega))
  refine ⟨c, ⟨hc.holds.resolve_left hct, fun m hm hp => hc.first m hm (Or.inr hp)⟩, ?_⟩
  by_cases hflag : t ≤ c + 1 + j
  · obtain ⟨i, rfl⟩ := Nat.exists_eq_succ_of_ne_zero (hpos hflag)
    have hlast : ¬ t ≤ c + 1 + i := fun h => hj.first i (Nat.lt_succ_self i) (Or.inl h)
    dsimp only at hvalid
    rw [if_pos hflag] at hvalid
    exact Or.inr ⟨i, by omega, hvalid⟩
  · exact Or.inl ⟨j, not_le.1 hflag, hj.holds.resolve_left hflag⟩

theorem exists_configures {c : ℕ} (hc : IsFirst (Prepares chainId e) c)
    (h : (∃ j, c + 1 + j < t ∧ (e.getBech32Config j).2 = none) ∨
      ∃ j, c + 1 + j + 1 = t ∧ (e.getBech32Config j).1.validateBasic = .ok ()) :
    ∃ r, Configures chainId e t r ∧ r.1.validateBasic = .ok () := by
  have hct : c + 1 < t := by
    rcases h with ⟨j, hj, -⟩ | ⟨j, hj, -⟩
    · omega
    · omega
  have hfirst : IsFirst (fun i => t ≤ i ∨ Prepares chainId e i) c := by
    refine ⟨Or.inr hc.holds, fun m hm hp => ?_⟩
    rcases hp with hp | hp
    · omega
    · exact hc.first m hm hp
  obtain ⟨j₀, -, hj₀⟩ := exists_isFirst (n := t)
    (p := fun j => t ≤ c + 1 + j ∨ (e.getBech32Config j).2 = none) (Or.inl (by omega))
  refine ⟨_, ⟨c + 1, returns_prepareRecord.2 ⟨c, hfirst, rfl⟩,
    returns_readBech32Cfg.2 ⟨j₀, hj₀, rfl⟩⟩, ?_⟩
  dsimp only
  split_ifs with hflag
  · -- the flag is seen, so no pass before has succeeded
    rcases h with ⟨j, hj, hok⟩ | ⟨j, hj, hok⟩
    · exact absurd (Or.inr hok) (hj₀.first j (by omega))
    · have hle : j₀ ≤ j + 1 := by
        by_contra hlt
        exact hj₀.first (j + 1) (by omega) (Or.inl (by omega))
      obtain rfl : j₀ = j + 1 := by omega
      exact hok
  · exact e.valid j₀ (hj₀.holds.resolve_left hflag)

theorem start_returned_iff :
    (start chainId e t).Returns .returned ↔ SurvivesShutdown chainId e t := by
  simp only [start, Computation.returns_bind, returns_checkPostponed,
    returns_preparePartitionedTables]
  constructor
  · rintro ⟨-, hpostponed, -, hpartitions, tests, htests, ⟨cfg, tests'⟩, hcfg, hend⟩
    refine ⟨hpostponed, hpartitions, configures_valid ⟨tests, htests, hcfg⟩ ?_⟩
    rcases hv : cfg.validateBasic with err | ⟨⟩
    · rw [hv] at hend
      cases Computation.returns_pure.1 hend
    · rfl
  · rintro ⟨hpostponed, hpartitions, c, hc, h⟩
    obtain ⟨⟨cfg, tests'⟩, ⟨tests, htests, hcfg⟩, hvalid⟩ := exists_configures hc h
    refine ⟨(), hpostponed, (), hpartitions, tests, htests, ⟨cfg, tests'⟩, hcfg, ?_⟩
    rw [hvalid]
    exact Computation.returns_bind.2 ⟨(), returns_iterateUntilShutdown,
      Computation.returns_pure.2 rfl⟩

/-- **Shutting down**: `Start` returns and never panics iff its answers let it survive the
    shutdown. -/
theorem start_survives_iff (chainId : String) (e : StartAnswers) (t : ℕ) :
    ((start chainId e t).Returns .returned ∧
        ∀ err, ¬ (start chainId e t).Returns (.panicked err)) ↔
      SurvivesShutdown chainId e t := by
  rw [← start_returned_iff]
  refine ⟨fun h => h.1, fun h => ⟨h, fun err herr => ?_⟩⟩
  cases h.unique herr

/-- Answers without a failure. -/
def allWell : StartAnswers where
  isChainPostponed _ := .ok false
  preparePartitionedTables _ := .ok ()
  chainInfo _ := ⟨"http://localhost:8545", some ⟨AList.insert "addr" "rol" ∅, "rollappevm_1234-1",
    "evm", AList.insert "bank" "urol" ∅, 1, 1720000000⟩, .error "", .ok ()⟩
  getBech32Config _ := (⟨"rol", "rolvalcons", "rolvaloper"⟩, none)
  valid _ _ := rfl

/-- `Start` panics when it is shut down between the record of the chain and the
    configuration, although nothing fails. -/
theorem start_panics : ∃ err,
    (start "rollappevm_1234-1" allWell 1).Returns (.panicked err) := ⟨_, 2, rfl⟩

end RollappExplorer
