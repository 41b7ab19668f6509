/-
  The cache that the indexers of all chains share
  (`services/per_chain_indexer/types/shared_cache.go`).

  An indexer looks up whether the partitions of a week are created for its chain, and marks them
  once they are.  The entries of the cache are texts made of the week and the chain id.

  * `SharedCache.run`: the cache after a sequence of calls of any indexers;
  * `buildKeyFromEpochWeekAndChainId_inj`: different weeks or chain ids have different keys;
  * `keys_unambiguous`: the keys and the ids of partitions are unambiguous, hence a week is created
    for a chain iff it was marked for this chain;
  * `SharedCache.run_allows`: an indexer that only knows its own marks gets the same answers.
-/
import RollappExplorer.Environment
import RollappExplorer.Go.Map
import RollappExplorer.Go.Numerals
import RollappExplorer.Partitions

namespace RollappExplorer

open Go

/-- `fmt.Sprintf("%s w%d", chainId, epochWeek)` -/
def buildKeyFromEpochWeekAndChainId (epochWeek : ℤ) (chainId : String) : String :=
  chainId ++ " w" ++ toString epochWeek

structure SharedCache where
  createdPartitionsForEpochWeekAndChainId : Map String Bool

namespace SharedCache

/-- `NewSharedCache` -/
def new : SharedCache := ⟨∅⟩

def markCreatedPartitionsForEpochWeekAndChainIdWL (s : SharedCache) (epochWeek : ℤ)
    (chainId : String) : SharedCache :=
  ⟨s.createdPartitionsForEpochWeekAndChainId.insert
    (buildKeyFromEpochWeekAndChainId epochWeek chainId) true⟩

def isCreatedPartitionsForEpochWeekAndChainIdRL (s : SharedCache) (epochWeek : ℤ)
    (chainId : String) : Bool :=
  (s.createdPartitionsForEpochWeekAndChainId.lookup
    (buildKeyFromEpochWeekAndChainId epochWeek chainId)).isSome

/-- A call of the indexer of some chain. -/
inductive CacheCall where
  | mark (epochWeek : ℤ) (chainId : String)
  | isCreated (epochWeek : ℤ) (chainId : String)

/-- The cache after a call. -/
def call (s : SharedCache) : CacheCall → SharedCache
  | .mark epochWeek chainId => s.markCreatedPartitionsForEpochWeekAndChainIdWL epochWeek chainId
  | .isCreated _ _ => s

/-- The calls are made one after the other, as the lock makes them. -/
def run (s : SharedCache) (calls : List CacheCall) : SharedCache := calls.foldl call s

end SharedCache

/-! ## Keys -/

theorem letter_notMem_toString (n : ℤ) : 'w' ∉ (toString n).toList := by
  intro h
  rcases mem_toString h with h | h
  · exact absurd h (by decide)
  · exact absurd h (by decide)

/-- The week begins behind the last `w`. -/
theorem buildKeyFromEpochWeekAndChainId_inj {epochWeek epochWeek' : ℤ}
    {chainId chainId' : String} :
    buildKeyFromEpochWeekAndChainId epochWeek chainId =
        buildKeyFromEpochWeekAndChainId epochWeek' chainId' ↔
      epochWeek = epochWeek' ∧ chainId = chainId' := by
  constructor
  · intro h
    have hrev (week : ℤ) (c : String) :
        (buildKeyFromEpochWeekAndChainId week c).toList.reverse =
          (toString week).toList.reverse ++ 'w' :: ' ' :: c.toList.reverse := by
      unfold buildKeyFromEpochWeekAndChainId
      rw [String.toList_append, String.toList_append, List.reverse_append, List.reverse_append]
      rfl
    have hlist := congrArg List.reverse (congrArg String.toList h)
    rw [hrev, hrev] at hlist
    obtain ⟨hweek, hchain⟩ := append_separator_inj
      (mt List.mem_reverse.1 (letter_notMem_toString _))
      (mt List.mem_reverse.1 (letter_notMem_toString _)) hlist
    refine ⟨toString_inj (String.toList_injective (List.reverse_injective hweek)), ?_⟩
    exact String.toList_injective (List.reverse_injective (List.cons.inj hchain).2)
  · rintro ⟨rfl, rfl⟩
    rfl

/-- The chain id is not empty, and there is no white space at its ends. -/
def IsTrimmedId (chainId : String) : Prop := chainId ≠ "" ∧ trimSpace chainId = chainId

instance (chainId : String) : Decidable (IsTrimmedId chainId) :=
  inferInstanceAs (Decidable (_ ∧ _))

theorem makePartitionIdFromKeys_inj {epochWeek epochWeek' : ℤ} {chainId chainId' : String}
    (hc : IsTrimmedId chainId) (hc' : IsTrimmedId chainId')
    (h : makePartitionIdFromKeys [toString epochWeek, chainId] =
      makePartitionIdFromKeys [toString epochWeek', chainId']) :
    epochWeek = epochWeek' ∧ chainId = chainId' := by
  obtain ⟨hne, htrim⟩ := hc
  obtain ⟨hne', htrim'⟩ := hc'
  rw [makePartitionIdFromKeys_week (by rwa [htrim]), htrim,
    makePartitionIdFromKeys_week (by rwa [htrim']), htrim'] at h
  exact toString_append_space_inj (Except.ok.inj h)

/-! ## Calls -/

namespace SharedCache

variable {s : SharedCache} {epochWeek : ℤ} {chainId : String}

/-- What a call adds. -/
theorem isCreated_call (c : CacheCall) :
    (s.call c).isCreatedPartitionsForEpochWeekAndChainIdRL epochWeek chainId = true ↔
      c = .mark epochWeek chainId ∨
        s.isCreatedPartitionsForEpochWeekAndChainIdRL epochWeek chainId = true := by
  cases c with
  | isCreated week id => exact ⟨.inr, fun h => h.resolve_left nofun⟩
  | mark week id =>
    unfold call markCreatedPartitionsForEpochWeekAndChainIdWL
      isCreatedPartitionsForEpochWeekAndChainIdRL
    by_cases hkey : buildKeyFromEpochWeekAndChainId epochWeek chainId =
        buildKeyFromEpochWeekAndChainId week id
    · obtain ⟨rfl, rfl⟩ := buildKeyFromEpochWeekAndChainId_inj.1 hkey
      rw [AList.lookup_insert]
      exact iff_of_true rfl (.inl rfl)
    · rw [AList.lookup_insert_ne hkey]
      refine ⟨.inr, fun h => h.resolve_left ?_⟩
      rintro ⟨⟩
      exact hkey rfl

/-- **A week is created for a chain** iff it was before or is marked for this chain. -/
theorem isCreated_run (calls : List CacheCall) :
    (s.run calls).isCreatedPartitionsForEpochWeekAndChainIdRL epochWeek chainId = true ↔
      .mark epochWeek chainId ∈ calls ∨
        s.isCreatedPartitionsForEpochWeekAndChainIdRL epochWeek chainId = true := by
  induction calls generalizing s with
  | nil => simp [run]
  | cons c calls ih =>
    show ((s.call c).run calls).isCreatedPartitionsForEpochWeekAndChainIdRL _ _ = true ↔ _
    rw [ih, isCreated_call, List.mem_cons, eq_comm]
    tauto

theorem isCreated_new :
    new.isCreatedPartitionsForEpochWeekAndChainIdRL epochWeek chainId = false := by
  unfold isCreatedPartitionsForEpochWeekAndChainIdRL new
  rw [AList.lookup_empty]
  rfl

/-- The weeks marked for a chain, the last one first. -/
def weeksOf (chainId : String) (calls : List CacheCall) : List ℤ :=
  (calls.filterMap fun
    | .mark epochWeek id => if id = chainId then some epochWeek else none
    | .isCreated _ _ => none).reverse

theorem mem_weeksOf {calls : List CacheCall} :
    epochWeek ∈ weeksOf chainId calls ↔ .mark epochWeek chainId ∈ calls := by
  rw [weeksOf, List.mem_reverse, List.mem_filterMap]
  constructor
  · rintro ⟨c, hc, hsome⟩
    cases c with
    | isCreated week id => cases hsome
    | mark week id =>
      dsimp only at hsome
      split_ifs at hsome with hid
      cases hsome
      exact hid ▸ hc
  · intro h
    exact ⟨_, h, if_pos rfl⟩

/-- **The shared cache refines the weeks of one chain**: its answers to an indexer are those of
    an environment that only keeps the marks of this indexer. -/
theorem run_allows {R : Type} (d : Indexer R) (rpc : Answers) (calls : List CacheCall) (w : World R)
    (hw : w.createdPartitions = weeksOf d.chainId calls) (a : Bool) :
    allows d rpc (.isCreatedPartitions epochWeek) a w ↔
      a = (new.run calls).isCreatedPartitionsForEpochWeekAndChainIdRL epochWeek d.chainId := by
  have hmark : decide (epochWeek ∈ w.createdPartitions) =
      (new.run calls).isCreatedPartitionsForEpochWeekAndChainIdRL epochWeek d.chainId := by
    rw [Bool.eq_iff_iff, decide_eq_true_eq, hw, mem_weeksOf, isCreated_run, isCreated_new]
    simp
  show a = decide (epochWeek ∈ w.createdPartitions) ↔ _
  rw [hmark]

end SharedCache

open SharedCache in
/-- **Keys are unambiguous**: of trimmed chain ids, the keys of the cache and the ids of partitions
    determine the week and the chain id; hence, after any calls, the cache says that a week is
    created for a chain iff it was marked for exactly this chain. -/
theorem keys_unambiguous :
    (∀ (w₁ w₂ : ℤ) (c₁ c₂ : String), IsTrimmedId c₁ → IsTrimmedId c₂ →
      (buildKeyFromEpochWeekAndChainId w₁ c₁ = buildKeyFromEpochWeekAndChainId w₂ c₂ →
        w₁ = w₂ ∧ c₁ = c₂) ∧
      (makePartitionIdFromKeys [toString w₁, c₁] = makePartitionIdFromKeys [toString w₂, c₂] →
        w₁ = w₂ ∧ c₁ = c₂)) ∧
    ∀ (calls : List CacheCall) (w : ℤ) (c : String),
      (new.run calls).isCreatedPartitionsForEpochWeekAndChainIdRL w c = true ↔
        .mark w c ∈ calls := by
  constructor
  · intro w₁ w₂ c₁ c₂ hc₁ hc₂
    exact ⟨buildKeyFromEpochWeekAndChainId_inj.1, makePartitionIdFromKeys_inj hc₁ hc₂⟩
  · intro calls w c
    rw [isCreated_run, isCreated_new]
    exact or_iff_left nofun

/-- The separator of the keys may occur in a chain id. -/
theorem keys_unambiguous_separator :
    buildKeyFromEpochWeekAndChainId 2 "a w1" ≠ buildKeyFromEpochWeekAndChainId 1 "a" ∧
      makePartitionIdFromKeys [toString (1 : ℤ), "2 a"] ≠
        makePartitionIdFromKeys [toString (1 : ℤ), "a"] := by
  have h₁ := (keys_unambiguous.1 2 1 "a w1" "a" (by decide +kernel) (by decide +kernel)).1
  have h₂ := (keys_unambiguous.1 1 1 "2 a" "a" (by decide +kernel) (by decide +kernel)).2
  exact ⟨fun h => absurd (h₁ h).1 (by decide), fun h => absurd (h₂ h).2 (by decide)⟩

end RollappExplorer
