/-
  Fetching the metadata of the denoms (`hooks/useDenomsMetadata.ts`).

  The pages are requested one after the other, up to the first one with fewer denoms than the server
  puts on a page.

  * `fetchPage`: a pass of the loop; `fetchDenomsMetadata`: the loop, whose result is dispatched;
  * `IsServer`: a server that answers every page with some of the denoms of a chain;
  * `fetchDenomsMetadata_leftIn_iff`: when the loop ends, and what it has found;
  * `fetchDenomsMetadata_spec`: the loop ends iff some page is short, and dispatches the union of
    the pages up to the first such page.
-/
import RollappExplorer.Effect.Loop
import RollappExplorer.RpcAmounts

namespace RollappExplorer

open Effect Js Text

/-- `DenomsMetadata` -/
abbrev DenomsMetadataMap := Map String DenomMetadata

/-- The most records that the API returns for a page. -/
def maxDenomsPerPage : ℕ := 20

/-- `for (const key of keys) { denomsMetadata[key] = _denomsMetadata[key]; }` -/
def addPage (denomsMetadata page : DenomsMetadataMap) : DenomsMetadataMap :=
  page.keys.foldl (fun m key => (page.lookup key).elim m (m.insert key)) denomsMetadata

/-- A pass of the loop, with one request. -/
def fetchPage (getDenomsMetadata : ℕ → DenomsMetadataMap) :
    ℕ × DenomsMetadataMap → (ℕ × DenomsMetadataMap) ⊕ DenomsMetadataMap
  | (pageNumber, denomsMetadata) =>
    let page := getDenomsMetadata pageNumber
    let denomsMetadata := addPage denomsMetadata page
    if page.keys.length ≥ maxDenomsPerPage then .inl (pageNumber + 1, denomsMetadata)
    else .inr denomsMetadata

/-- The map that is dispatched. -/
def fetchDenomsMetadata (getDenomsMetadata : ℕ → DenomsMetadataMap) :
    Effect.Computation DenomsMetadataMap :=
  loop (fetchPage getDenomsMetadata) (1, ∅)

/-! ## Pages -/

variable {getDenomsMetadata : ℕ → DenomsMetadataMap} {chain m page : DenomsMetadataMap} {k : String}
  {v : DenomMetadata} {n : ℕ}

/-- The keys that are set have the values of the page. -/
theorem lookup_foldl_insert (keys : List String) (h : ∀ key ∈ keys, key ∈ page) :
    (keys.foldl (fun m key => (page.lookup key).elim m (m.insert key)) m).lookup k =
      if k ∈ keys then page.lookup k else m.lookup k := by
  induction keys generalizing m with
  | nil => rfl
  | cons key keys ih =>
    obtain ⟨hkey, hkeys⟩ := List.forall_mem_cons.1 h
    obtain ⟨w, hw⟩ := Option.isSome_iff_exists.1 (AList.lookup_isSome.2 hkey)
    rw [List.foldl_cons, hw, Option.elim_some, ih hkeys]
    by_cases hk : k = key
    · subst hk
      rw [if_pos List.mem_cons_self, AList.lookup_insert, hw, ite_self]
    · rw [AList.lookup_insert_ne hk]
      exact if_congr (by rw [List.mem_cons, or_iff_right hk]) rfl rfl

/-- A page is added to what is there. -/
theorem lookup_addPage : (addPage m page).lookup k = (page.lookup k).or (m.lookup k) := by
  rw [addPage, lookup_foldl_insert page.keys fun key hkey => AList.mem_keys.2 hkey]
  split_ifs with hk
  · obtain ⟨w, hw⟩ := Option.isSome_iff_exists.1 (AList.lookup_isSome.2 (AList.mem_keys.2 hk))
    rw [hw, Option.some_or]
  · rw [AList.lookup_eq_none.2 (mt AList.mem_keys.1 hk), Option.none_or]

/-- The first pages together. -/
def pagesUpTo (getDenomsMetadata : ℕ → DenomsMetadataMap) : ℕ → DenomsMetadataMap
  | 0 => ∅
  | n + 1 => addPage (pagesUpTo getDenomsMetadata n) (getDenomsMetadata (n + 1))

/-- The server answers every page with some of the denoms of the chain. -/
def IsServer (chain : DenomsMetadataMap) (getDenomsMetadata : ℕ → DenomsMetadataMap) : Prop :=
  ∀ pageNumber k v, (getDenomsMetadata pageNumber).lookup k = some v → chain.lookup k = some v

/-- **The first pages together** have the denoms that are on one of them. -/
theorem lookup_pagesUpTo (h : IsServer chain getDenomsMetadata) :
    (pagesUpTo getDenomsMetadata n).lookup k = some v ↔
      ∃ pageNumber, 1 ≤ pageNumber ∧ pageNumber ≤ n ∧
        (getDenomsMetadata pageNumber).lookup k = some v := by
  induction n with
  | zero =>
    refine ⟨nofun, ?_⟩
    rintro ⟨pageNumber, hpos, hle, -⟩
    omega
  | succ n ih =>
    rw [pagesUpTo, lookup_addPage]
    constructor
    · intro hv
      cases hpage : (getDenomsMetadata (n + 1)).lookup k with
      | none =>
        rw [hpage, Option.none_or] at hv
        obtain ⟨pageNumber, hpos, hle, hlookup⟩ := ih.1 hv
        exact ⟨pageNumber, hpos, hle.trans (Nat.le_succ n), hlookup⟩
      | some w =>
        rw [hpage, Option.some_or] at hv
        exact ⟨n + 1, Nat.succ_pos n, le_rfl, hpage.trans hv⟩
    · rintro ⟨pageNumber, hpos, hle, hlookup⟩
      cases hpage : (getDenomsMetadata (n + 1)).lookup k with
      | none =>
        rw [Option.none_or]
        rcases Nat.le_succ_iff.1 hle with hle | rfl
        · exact ih.2 ⟨pageNumber, hpos, hle, hlookup⟩
        · rw [hpage] at hlookup
          cases hlookup
      | some w =>
        -- Two pages agree on a denom, as both are of the chain.
        rw [Option.some_or, ← h _ _ _ hpage]
        exact h _ _ _ hlookup

/-! ## The loop -/

/-- The page has fewer denoms than a page can have. -/
def IsShort (getDenomsMetadata : ℕ → DenomsMetadataMap) (pageNumber : ℕ) : Prop :=
  (getDenomsMetadata pageNumber).keys.length < maxDenomsPerPage

instance (pageNumber : ℕ) : Decidable (IsShort getDenomsMetadata pageNumber) :=
  inferInstanceAs (Decidable (_ < _))

/-- **The loop ends** with the first short page, and with the pages up to this one. -/
theorem fetchDenomsMetadata_leftIn_iff :
    (fetchDenomsMetadata getDenomsMetadata).LeftIn n m ↔
      IsFirst (fun i => IsShort getDenomsMetadata (i + 1)) n ∧
        m = pagesUpTo getDenomsMetadata (n + 1) := by
  have hleave : ∀ i, IsShort getDenomsMetadata (i + 1) →
      fetchPage getDenomsMetadata (i + 1, pagesUpTo getDenomsMetadata i) =
        .inr (pagesUpTo getDenomsMetadata (i + 1)) :=
    fun i hi => if_neg (Nat.not_le.2 hi)
  have hagain : ∀ i, ¬ IsShort getDenomsMetadata (i + 1) →
      fetchPage getDenomsMetadata (i + 1, pagesUpTo getDenomsMetadata i) =
        .inl (i + 1 + 1, pagesUpTo getDenomsMetadata (i + 1)) :=
    fun i hi => if_pos (Nat.not_lt.1 hi)
  exact leftIn_loop_iff (s := fun i => (i + 1, pagesUpTo getDenomsMetadata i)) hleave hagain

/-- **The loop ends at all** iff there is a short page. -/
theorem fetchDenomsMetadata_returns_iff :
    (∃ m, (fetchDenomsMetadata getDenomsMetadata).Returns m) ↔
      ∃ pageNumber, 1 ≤ pageNumber ∧ IsShort getDenomsMetadata pageNumber := by
  constructor
  · rintro ⟨m, hm⟩
    obtain ⟨n, hn⟩ := (Computation.returns_iff_leftIn rfl).1 hm
    exact ⟨n + 1, Nat.succ_pos n, (fetchDenomsMetadata_leftIn_iff.1 hn).1.holds⟩
  · rintro ⟨pageNumber, hpos, hshort⟩
    obtain ⟨i, rfl⟩ : ∃ i, pageNumber = i + 1 := ⟨pageNumber - 1, by omega⟩
    obtain ⟨n, -, hn⟩ := exists_isFirst (p := fun i => IsShort getDenomsMetadata (i + 1)) hshort
    exact ⟨_, (Computation.returns_iff_leftIn rfl).2
      ⟨n, fetchDenomsMetadata_leftIn_iff.2 ⟨hn, rfl⟩⟩⟩

/-- **Fetching ends** iff some page is short; it requests the pages up to the first short one, and
    what is dispatched is the union of these pages. -/
theorem fetchDenomsMetadata_spec (chain : DenomsMetadataMap)
    (getDenomsMetadata : ℕ → DenomsMetadataMap) (h : IsServer chain getDenomsMetadata) :
    ((∃ m, (fetchDenomsMetadata getDenomsMetadata).Returns m) ↔
      ∃ pageNumber, 1 ≤ pageNumber ∧ IsShort getDenomsMetadata pageNumber) ∧
    ∀ n m, (fetchDenomsMetadata getDenomsMetadata).LeftIn n m →
      IsFirst (fun i => IsShort getDenomsMetadata (i + 1)) n ∧
        ∀ k v, m.lookup k = some v ↔ ∃ pageNumber, 1 ≤ pageNumber ∧ pageNumber ≤ n + 1 ∧
          (getDenomsMetadata pageNumber).lookup k = some v := by
  refine ⟨fetchDenomsMetadata_returns_iff, fun n m hleft => ?_⟩
  obtain ⟨hfirst, rfl⟩ := fetchDenomsMetadata_leftIn_iff.1 hleft
  exact ⟨hfirst, fun k v => lookup_pagesUpTo h⟩

/-- A denom on one of the pages is shown with its symbol. -/
theorem formatRpcAmount_fetched {u : CaseMapping} {J : BigJs} {coin : CoinText} {pageNumber : ℕ}
    (h : IsServer chain getDenomsMetadata)
    (hleft : (fetchDenomsMetadata getDenomsMetadata).LeftIn n m) (hpos : 1 ≤ pageNumber)
    (hle : pageNumber ≤ n + 1) (hpage : (getDenomsMetadata pageNumber).lookup coin.denom = some v)
    (hlower : ∀ c ∈ coin.denom.toList, c.isLower = true) (hexponent : v.highestExponent ≤ 20) :
    ∃ text, Displays text (readDigits 10 coin.amount.toList / 10 ^ v.highestExponent) ∧
      formatRpcAmount u J (String.ofList (coinsText [coin])) m =
        some (text ++ " " ++ v.symbol) := by
  obtain ⟨-, rfl⟩ := fetchDenomsMetadata_leftIn_iff.1 hleft
  have hmetadata := (lookup_pagesUpTo h).2 ⟨pageNumber, hpos, hle, hpage⟩
  exact formatRpcAmount_coin coin hlower hmetadata hexponent

/-! ## Two servers -/

/-- The denoms `ibc/0`, `ibc/1` and so on. -/
def ibcDenoms (n : ℕ) : DenomsMetadataMap :=
  Map.setAll ∅ ((List.range n).map fun i => ("ibc/" ++ toString i, ⟨toString i, 6⟩))

/-- A server whose pages behind the first one are empty. -/
def twoPages : ℕ → DenomsMetadataMap
  | 1 => ibcDenoms 20
  | _ => ∅

theorem isServer_twoPages : IsServer (ibcDenoms 20) twoPages := by
  intro pageNumber k v hlookup
  unfold twoPages at hlookup
  split at hlookup
  · exact hlookup
  · cases hlookup

theorem length_ibcDenoms : (ibcDenoms 20).keys.length = 20 := by decide +kernel

/-- The second page is short. -/
theorem fetchDenomsMetadata_twoPages :
    ∃ m, (fetchDenomsMetadata twoPages).Returns m :=
  (fetchDenomsMetadata_spec (ibcDenoms 20) twoPages isServer_twoPages).1.2
    ⟨2, by decide, by decide⟩

/-- **A server may be asked forever**: one that ignores the page number and has 20 denoms. -/
theorem fetchDenomsMetadata_counterexample :
    ¬ ∀ (chain : DenomsMetadataMap) (getDenomsMetadata : ℕ → DenomsMetadataMap),
      IsServer chain getDenomsMetadata →
      ∃ m, (fetchDenomsMetadata getDenomsMetadata).Returns m := by
  intro h
  obtain ⟨pageNumber, -, hshort⟩ := fetchDenomsMetadata_returns_iff.1
    (h (ibcDenoms 20) (fun _ => ibcDenoms 20) fun _ _ _ => id)
  rw [IsShort, length_ibcDenoms] at hshort
  exact absurd hshort (by decide)

end RollappExplorer
