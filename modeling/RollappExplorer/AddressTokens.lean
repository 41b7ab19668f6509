/-
  The tokens of an account (`components/client/address/AddressTokens.tsx`,
  `hooks/useTokenBalances.ts`, `components/commons/DataTable.tsx`).

  A page of the contracts of the account is sliced, its balances are fetched, and a table shows
  them, with controls for other pages.

  * `DataTable.showPagination`: whether the table has controls;
  * `TokensStep`: the balances arrive, or a control is used; `TokensReachable`: the states that the
    component can be in;
  * `TokensInvariant`: the page is the first one, and the total is that of a page;
  * `isShown_iff`: the contracts that some state shows;
  * `tokens_reachable_iff`: every contract is shown iff those behind the first ten are among the
    first ten too.
-/
import RollappExplorer.Pages

namespace RollappExplorer

/-- `ADDRESS_SUMMARY_COINS_PAGE_SIZE` -/
def addressSummaryCoinsPageSize : ℕ := 10

/-! ## Components -/

/-- What a table shows: the rows that are loaded, the total, and the page. -/
structure DataTable where
  loading : Bool
  loadingItems : Option ℕ
  rowKeys : List String
  total : Option ℕ
  page : ℕ
  pageSize : ℕ
  enablePagination : Bool

namespace DataTable

/-- `_body.length` -/
def bodyLength (t : DataTable) : ℕ :=
  if t.loading then
    match t.loadingItems with
    | none | some 0 => t.pageSize
    | some items => items
  else t.rowKeys.length

/-- A table without rows has no controls either. -/
def showPagination (t : DataTable) : Bool :=
  t.bodyLength ≠ 0 && (t.enablePagination && t.total.all fun total => total > t.pageSize)

/-- The rows of the table; while it is loading, these are placeholders. -/
def displayed (t : DataTable) : List String := if t.loading then [] else t.rowKeys

end DataTable

/-- The page controls of a table with a total (`-1` is `none`), a page size and a page: the
    pages to which they lead. -/
abbrev TablePagination := Option ℕ → ℕ → ℕ → List ℕ

/-- A balance, with the contract of the token. -/
structure Erc20Balance where
  contract : String

/-- The services for balances of an address; one balance is returned for every contract. -/
structure BalanceService where
  erc20Balances : String → List String → List Erc20Balance
  cw20Balances : String → List String → List Erc20Balance
  erc20_contracts : ∀ address contracts,
    (erc20Balances address contracts).map Erc20Balance.contract = contracts
  cw20_contracts : ∀ address contracts,
    (cw20Balances address contracts).map Erc20Balance.contract = contracts

/-- An account, with its address on the EVM; the indexer keeps no account without an address. -/
structure TokenAccount where
  bech32Address : String
  evmAddress : Option String
  balanceOnErc20Contracts : List String
  bech32_ne : bech32Address ≠ ""

namespace TokenAccount

/-- `evmAddress || accountInfo.bech32_address` -/
def address (a : TokenAccount) : String :=
  match a.evmAddress with
  | none => a.bech32Address
  | some address => if address = "" then a.bech32Address else address

def slicedErc20Contract (a : TokenAccount) (page : ℕ) : List String :=
  slice a.balanceOnErc20Contracts (page * addressSummaryCoinsPageSize)
    ((page + 1) * addressSummaryCoinsPageSize)

theorem address_ne (a : TokenAccount) : a.address ≠ "" := by
  unfold address
  split
  · exact a.bech32_ne
  · split_ifs with h
    · exact a.bech32_ne
    · exact h

end TokenAccount

/-- The balances of the contracts, for the kind of the address. -/
def BalanceService.tokenBalances (service : BalanceService) (address : String)
    (tokenAddresses : List String) : List Erc20Balance :=
  if "0x".toList.isPrefixOf address.toList then service.erc20Balances address tokenAddresses
  else service.cw20Balances address tokenAddresses

theorem BalanceService.tokenBalances_contracts (service : BalanceService) (address : String)
    (tokenAddresses : List String) :
    (service.tokenBalances address tokenAddresses).map Erc20Balance.contract =
      tokenAddresses := by
  unfold tokenBalances
  split_ifs
  · exact service.erc20_contracts address tokenAddresses
  · exact service.cw20_contracts address tokenAddresses

/-- The state of the component, with the contracts whose balances are being fetched. -/
structure TokensState where
  page : ℕ
  tokenBalances : List Erc20Balance
  loading : Bool
  requested : Option (List String)

namespace TokensState

def rowKeys (s : TokensState) : List String := s.tokenBalances.map Erc20Balance.contract

def table (s : TokensState) : DataTable where
  loading := s.loading
  loadingItems := some 1
  rowKeys := s.rowKeys
  total := some s.rowKeys.length
  page := s.page
  pageSize := addressSummaryCoinsPageSize
  enablePagination := true

/-- The effect of the hook; it aborts an earlier request. -/
def useTokenBalances (address : String) (tokenAddresses : List String) (s : TokensState) :
    TokensState :=
  if address ≠ "" ∧ tokenAddresses.length ≠ 0 then
    { s with loading := true, requested := some tokenAddresses }
  else { s with tokenBalances := [], requested := none }

def setPage (a : TokenAccount) (page : ℕ) (s : TokensState) : TokensState :=
  useTokenBalances a.address (a.slicedErc20Contract page) { s with page := page }

def initial (a : TokenAccount) : TokensState := setPage a 0 ⟨0, [], true, none⟩

end TokensState

section
variable (service : BalanceService) (pagination : TablePagination) (a : TokenAccount)

/-- A step of the component. -/
inductive TokensStep : TokensState → TokensState → Prop
  | respond {s : TokensState} {contracts : List String} (h : s.requested = some contracts) :
      TokensStep s { s with
        tokenBalances := service.tokenBalances a.address contracts
        loading := false
        requested := none }
  | changePage {s : TokensState} {page : ℕ} (hshow : s.table.showPagination = true)
      (hpage : page ∈ pagination s.table.total s.table.pageSize s.table.page) :
      TokensStep s (s.setPage a page)

/-- The states of the component. -/
inductive TokensReachable : TokensState → Prop
  | initial : TokensReachable (TokensState.initial a)
  | step {s s' : TokensState} (h : TokensReachable s)
      (hstep : TokensStep service pagination a s s') : TokensReachable s'

/-- Some state shows the contract. -/
def IsShown (c : String) : Prop :=
  ∃ s, TokensReachable service pagination a s ∧ c ∈ s.table.displayed

end

/-! ## Runs -/

variable {service : BalanceService} {pagination : TablePagination} {a : TokenAccount}
  {s s' : TokensState} {c : String}

theorem slicedErc20Contract_zero (a : TokenAccount) :
    a.slicedErc20Contract 0 = a.balanceOnErc20Contracts.take addressSummaryCoinsPageSize := by
  unfold TokenAccount.slicedErc20Contract slice
  rw [Nat.zero_mul, List.drop_zero, Nat.zero_add, Nat.one_mul, Nat.sub_zero]

/-- The component is on its first page, and knows no contract but those of this page. -/
structure TokensInvariant (a : TokenAccount) (s : TokensState) : Prop where
  page : s.page = 0
  rowKeys : s.rowKeys = [] ∨ s.rowKeys = a.slicedErc20Contract 0
  requested : ∀ contracts ∈ s.requested, contracts = a.slicedErc20Contract 0

theorem TokensInvariant.initial (a : TokenAccount) : TokensInvariant a (TokensState.initial a) := by
  unfold TokensState.initial TokensState.setPage TokensState.useTokenBalances
  split_ifs
  · refine ⟨rfl, .inl rfl, ?_⟩
    rintro contracts ⟨⟩
    rfl
  · exact ⟨rfl, .inl rfl, nofun⟩

/-- The total is that of a page, so it needs no further page. -/
theorem TokensInvariant.showPagination (h : TokensInvariant a s) :
    s.table.showPagination = false := by
  have hle : s.rowKeys.length ≤ addressSummaryCoinsPageSize := by
    rcases h.rowKeys with hnil | hpage
    · rw [hnil]
      exact Nat.zero_le _
    · rw [hpage, slicedErc20Contract_zero]
      exact List.length_take_le _ _
  show (_ && (true && decide (s.rowKeys.length > addressSummaryCoinsPageSize))) = false
  rw [decide_eq_false (not_lt.2 hle), Bool.and_false, Bool.and_false]

/-- A step keeps the invariant: only a response is possible. -/
theorem TokensInvariant.step (h : TokensInvariant a s)
    (hstep : TokensStep service pagination a s s') : TokensInvariant a s' := by
  cases hstep with
  | respond hrequested =>
    refine ⟨h.page, .inr ?_, nofun⟩
    rw [← h.requested _ hrequested]
    exact service.tokenBalances_contracts a.address _
  | changePage hshow _ =>
    rw [h.showPagination] at hshow
    cases hshow

theorem TokensReachable.invariant (h : TokensReachable service pagination a s) :
    TokensInvariant a s := by
  induction h with
  | initial => exact .initial a
  | step _ hstep ih => exact ih.step hstep

/-! ## Shown contracts -/

/-- A contract is shown iff it is on the first page. -/
theorem isShown_iff : IsShown service pagination a c ↔ c ∈ a.slicedErc20Contract 0 := by
  constructor
  · rintro ⟨s, hs, hc⟩
    unfold DataTable.displayed at hc
    split_ifs at hc
    · cases hc
    · change c ∈ s.rowKeys at hc
      rcases hs.invariant.rowKeys with hnil | hpage
      · rw [hnil] at hc
        cases hc
      · rwa [hpage] at hc
  · intro hc
    have hinitial : (TokensState.initial a).requested = some (a.slicedErc20Contract 0) := by
      unfold TokensState.initial TokensState.setPage TokensState.useTokenBalances
      rw [if_pos ⟨a.address_ne, (List.length_pos_of_mem hc).ne'⟩]
    refine ⟨_, .step .initial (.respond hinitial), ?_⟩
    show c ∈ (service.tokenBalances a.address (a.slicedErc20Contract 0)).map _
    rwa [service.tokenBalances_contracts]

/-- **Reachable tokens.** Every contract of an account is shown on some page iff those behind the
    first ten are among the first ten too. -/
theorem tokens_reachable_iff (service : BalanceService) (pagination : TablePagination)
    (a : TokenAccount) :
    (∀ c ∈ a.balanceOnErc20Contracts, IsShown service pagination a c) ↔
      ∀ c ∈ a.balanceOnErc20Contracts.drop addressSummaryCoinsPageSize,
        c ∈ a.balanceOnErc20Contracts.take addressSummaryCoinsPageSize := by
  simp only [isShown_iff, slicedErc20Contract_zero]
  constructor
  · intro h c hc
    exact h c (List.mem_of_mem_drop hc)
  · intro h c hc
    rw [← List.take_append_drop addressSummaryCoinsPageSize a.balanceOnErc20Contracts] at hc
    exact (List.mem_append.1 hc).elim id (h c)

/-- A service without any amounts. -/
def contractsOnly : BalanceService where
  erc20Balances _ contracts := contracts.map Erc20Balance.mk
  cw20Balances _ contracts := contracts.map Erc20Balance.mk
  erc20_contracts _ contracts := (List.map_map ..).trans (List.map_id contracts)
  cw20_contracts _ contracts := (List.map_map ..).trans (List.map_id contracts)

/-- The controls that lead to all pages. -/
def allPages : TablePagination := fun total pageSize _ =>
  List.range (total.getD 0 ⌈/⌉ pageSize)

/-- An account with a token more than a page shows. -/
def elevenTokens : TokenAccount where
  bech32Address := "rol1acc"
  evmAddress := some "0xacc"
  balanceOnErc20Contracts := ["erc20-1", "erc20-2", "erc20-3", "erc20-4", "erc20-5", "erc20-6",
    "erc20-7", "erc20-8", "erc20-9", "erc20-10", "erc20-11"]
  bech32_ne := by decide

/-- The last of eleven tokens is never shown. -/
theorem tokens_reachable_counterexample :
    ¬ ∀ c ∈ elevenTokens.balanceOnErc20Contracts,
      IsShown contractsOnly allPages elevenTokens c := by
  intro h
  have hlast := isShown_iff.1 (h "erc20-11" (by decide))
  rw [slicedErc20Contract_zero] at hlast
  exact absurd hlast (by decide)

/-- The contracts of the database are distinct: then ten are the most. -/
theorem tokens_reachable_iff_length (hnodup : a.balanceOnErc20Contracts.Nodup) :
    (∀ c ∈ a.balanceOnErc20Contracts, IsShown service pagination a c) ↔
      a.balanceOnErc20Contracts.length ≤ addressSummaryCoinsPageSize := by
  rw [tokens_reachable_iff, ← List.drop_eq_nil_iff]
  constructor
  · intro h
    rw [List.eq_nil_iff_forall_not_mem]
    intro c hc
    exact List.disjoint_take_drop hnodup le_rfl (h c hc) hc
  · intro h c hc
    rw [h] at hc
    cases hc

end RollappExplorer
