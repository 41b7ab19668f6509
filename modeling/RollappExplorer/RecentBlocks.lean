/-
  The fallback of the block list (`hooks/useRecentBlocks.ts`).

  Without the recent blocks of the server, the blocks of a page are requested one by one, from the
  latest block downwards.

  * `blockNumbers`: the requested blocks, or the error of an array with a negative length;
  * `fallbackRequests`: the batch of requests;
  * `IsPageOfBlocks`: the blocks of a page, the greatest one first;
  * `recentBlocks_iff`: the blocks of a page are requested iff the page begins in front of the end
    or at the end, and every block is requested on one page.
-/
import RollappExplorer.Pages
import RollappExplorer.RpcBatch

namespace RollappExplorer

open Js

/-! ## Requests -/

def getBlockByNumberParam (blockNo : ℤ) : RpcCallParam where
  method := "be_getBlockByNumber"
  params := [.num blockNo]
  jsonrpc := "2.0"

/-- Negative past the last page. -/
def topBlockNoInPage (latestBlock page pageSize : ℕ) : ℤ := latestBlock - page * pageSize

def blockNumbers (latestBlock page pageSize : ℕ) : Except RangeError (List ℤ) := do
  let top := topBlockNoInPage latestBlock page pageSize
  let indices ← arrayIndices (min top pageSize)
  return indices.map fun idx : ℕ => top - idx

def fallbackRequests (latestBlock page pageSize : ℕ) :
    Except RangeError (List RpcCallParamFull) := do
  let blockNumbers ← blockNumbers latestBlock page pageSize
  return callRpc (blockNumbers.map getBlockByNumberParam)

/-! ## Pages of blocks -/

variable {latestBlock page page' pageSize : ℕ} {heights : List ℤ} {h : ℤ}

/-- The block is one of the page. -/
def InBlockPage (latestBlock page pageSize : ℕ) (h : ℤ) : Prop :=
  1 ≤ h ∧ h ≤ latestBlock ∧
    latestBlock - (page + 1) * pageSize < h ∧ h ≤ latestBlock - page * pageSize

/-- The blocks of the page, each once, the greatest one first. -/
structure IsPageOfBlocks (latestBlock page pageSize : ℕ) (heights : List ℤ) : Prop where
  mem : ∀ h, h ∈ heights ↔ InBlockPage latestBlock page pageSize h
  decreasing : heights.Pairwise (· > ·)

/-- The numbers from `top` downwards. -/
theorem mem_map_sub {top : ℤ} {n : ℕ} :
    (h ∈ (List.range n).map fun idx : ℕ => top - idx) ↔ top - n < h ∧ h ≤ top := by
  rw [List.mem_map]
  constructor
  · rintro ⟨idx, hidx, rfl⟩
    have hlt := List.mem_range.1 hidx
    omega
  · rintro ⟨hlt, hle⟩
    exact ⟨(top - h).toNat, List.mem_range.2 (by omega), by omega⟩

theorem pairwise_map_sub (top : ℤ) (n : ℕ) :
    ((List.range n).map fun idx : ℕ => top - idx).Pairwise (· > ·) := by
  rw [List.pairwise_map]
  refine List.pairwise_lt_range.imp ?_
  intro idx idx' hlt
  omega

/-- Past the last page, the array has a negative length. -/
theorem blockNumbers_error (hlt : latestBlock < page * pageSize) :
    blockNumbers latestBlock page pageSize = .error ⟨"Invalid array length"⟩ := by
  have hneg : min (topBlockNoInPage latestBlock page pageSize) pageSize < 0 := by
    refine min_lt_of_left_lt ?_
    unfold topBlockNoInPage
    omega
  unfold blockNumbers
  dsimp only
  rw [arrayIndices_of_neg hneg]
  rfl

/-- Up to there, the blocks of the page are requested. -/
theorem blockNumbers_ok (hsize : pageSize ≤ maxPaginationSize)
    (hle : page * pageSize ≤ latestBlock) :
    ∃ heights, blockNumbers latestBlock page pageSize = .ok heights ∧
      IsPageOfBlocks latestBlock page pageSize heights := by
  obtain ⟨top, rfl⟩ := Nat.exists_eq_add_of_le hle
  have htop : topBlockNoInPage (page * pageSize + top) page pageSize = top := by
    unfold topBlockNoInPage
    omega
  have hlength : min top pageSize < 2 ^ 32 :=
    (min_le_right _ _).trans_lt (hsize.trans_lt (by decide))
  have hmin : min (top : ℤ) pageSize = (min top pageSize : ℕ) := by omega
  refine ⟨(List.range (min top pageSize)).map fun idx : ℕ => (top : ℤ) - idx, ?_, ?_⟩
  · unfold blockNumbers
    dsimp only
    rw [htop, hmin, arrayIndices_natCast hlength]
    rfl
  · refine ⟨fun h => ?_, pairwise_map_sub _ _⟩
    rw [mem_map_sub, InBlockPage, Int.add_mul, Int.one_mul]
    omega

/-- A block is on one page only. -/
theorem InBlockPage.le (hpage : InBlockPage latestBlock page pageSize h)
    (hpage' : InBlockPage latestBlock page' pageSize h) : page ≤ page' := by
  have hlt : (page * pageSize : ℤ) < (page' + 1) * pageSize := by
    have hgt := hpage'.2.2.1
    have hle := hpage.2.2.2
    omega
  exact Nat.le_of_lt_succ (Nat.lt_of_mul_lt_mul_right (by exact_mod_cast hlt))

/-- The page of a block, counted from the latest one. -/
theorem exists_inBlockPage (hpos : 1 ≤ pageSize) (hh : 1 ≤ h) (hlatest : h ≤ latestBlock) :
    ∃ page, page * pageSize ≤ latestBlock ∧ InBlockPage latestBlock page pageSize h := by
  obtain ⟨behind, hbehind⟩ := Int.eq_ofNat_of_zero_le (Int.sub_nonneg.2 hlatest)
  have hdiv := Nat.div_mul_le_self behind pageSize
  have hlt := Nat.lt_div_mul_add (a := behind) hpos
  refine ⟨behind / pageSize, by omega, hh, hlatest, ?_, ?_⟩
  · rw [Int.add_mul, Int.one_mul]
    omega
  · omega

/-! ## Page parameters -/

/-- The requests of the page are those for its blocks. -/
def RequestsPage (latestBlock page pageSize : ℕ) : Prop :=
  ∃ heights, IsPageOfBlocks latestBlock page pageSize heights ∧
    fallbackRequests latestBlock page pageSize =
      .ok (callRpc (heights.map getBlockByNumberParam))

theorem requestsPage_iff (hsize : pageSize ≤ maxPaginationSize) :
    RequestsPage latestBlock page pageSize ↔ page * pageSize ≤ latestBlock := by
  constructor
  · rintro ⟨heights, -, hok⟩
    by_contra hlt
    unfold fallbackRequests at hok
    rw [blockNumbers_error (not_le.1 hlt)] at hok
    cases hok
  · intro hle
    obtain ⟨heights, hok, hpage⟩ := blockNumbers_ok hsize hle
    refine ⟨heights, hpage, ?_⟩
    unfold fallbackRequests
    rw [hok]
    rfl

/-- Without a total, every page can be selected. -/
theorem exists_pageParam (pageSizeParam : SearchParam) (page : ℕ) :
    ∃ pageParam, getPageAndPageSizeFromStringParam pageSizeParam pageParam none =
      (getValidPageSize (getNumberFromStringParam pageSizeParam), page) := by
  refine ⟨some (toString page), ?_⟩
  unfold getPageAndPageSizeFromStringParam
  dsimp only
  rw [getNumberFromStringParam_toString]
  cases page <;> rfl

/-- **The fallback of the block list.** For all page parameters, the blocks of the page are
    requested iff the page does not begin past the end; with every size of a page, each block is
    requested on one page.  At the end the batch of requests is empty. -/
theorem recentBlocks_iff (latestBlock : ℕ) (pageSizeParam : SearchParam) :
    (∀ pageParam,
      let (pageSize, page) := getPageAndPageSizeFromStringParam pageSizeParam pageParam none
      RequestsPage latestBlock page pageSize ↔ page * pageSize ≤ latestBlock) ∧
    ∀ h : ℤ, 1 ≤ h → h ≤ latestBlock →
      ∃! page, ∃ pageParam pageSize,
        getPageAndPageSizeFromStringParam pageSizeParam pageParam none = (pageSize, page) ∧
        RequestsPage latestBlock page pageSize ∧ InBlockPage latestBlock page pageSize h := by
  obtain ⟨hpos, hsize⟩ := getValidPageSize_bounds (getNumberFromStringParam pageSizeParam)
  refine ⟨fun pageParam => requestsPage_iff hsize, fun h hh hlatest => ?_⟩
  obtain ⟨page, hle, hpage⟩ := exists_inBlockPage hpos hh hlatest
  obtain ⟨pageParam, hparam⟩ := exists_pageParam pageSizeParam page
  refine ⟨page, ⟨pageParam, _, hparam, (requestsPage_iff hsize).2 hle, hpage⟩, ?_⟩
  rintro page' ⟨pageParam', pageSize, hparam', -, hpage'⟩
  obtain ⟨rfl, -⟩ := Prod.mk.inj hparam'
  exact Nat.le_antisymm (hpage'.le hpage) (hpage.le hpage')

/-- The second page of a chain with one block. -/
theorem recentBlocks_counterexample :
    ¬ ∀ pageParam,
      let (pageSize, page) := getPageAndPageSizeFromStringParam none pageParam none
      RequestsPage 1 page pageSize := by
  intro h
  have hpage : RequestsPage 1 1 25 := h (some "1")
  exact absurd ((requestsPage_iff (by decide)).1 hpage) (by decide)

end RollappExplorer
