/-
  Page parameters (`utils/common.ts`).

  * `getPageAndPageSizeFromStringParam`: the size and the number of a page from the texts of the
    query string;
  * `IsObtainable`: the pages that some texts select;
  * `pages_valid`: every text selects a valid page, and the slices of the pages up to the greatest
    one make up the list.
-/
import Mathlib.Algebra.Order.Floor.Div
import Mathlib.Order.Bounds.Defs
import RollappExplorer.Sql.Paging
import RollappExplorer.Text.Digits

namespace RollappExplorer

open Text

/-- `DEFAULT_PAGINATION_SIZE` -/
def defaultPaginationSize : ℕ := 25

/-- `MAX_PAGINATION_SIZE` -/
def maxPaginationSize : ℕ := 100

/-- `string | undefined | null` -/
abbrev SearchParam := Option String

/-- The number is `none` for `NaN`. -/
def getNumberFromStringParam (param : SearchParam) : Option ℕ :=
  param.bind fun s => if isDigits s then some (readDigits 10 s.toList) else none

def getValidPageSize : Option ℕ → ℕ
  | none | some 0 => defaultPaginationSize
  | some pageSize => min pageSize maxPaginationSize

def getValidPage (page : Option ℕ) (pageSize : ℕ) (total : Option ℕ) : ℕ :=
  match page, total with
  | none, _ | some 0, _ => 0
  | some page, none => page
  | some page, some total => min (if total = 0 then 0 else total ⌈/⌉ pageSize - 1) page

def getPageAndPageSizeFromStringParam (pageSizeParam pageParam : SearchParam)
    (total : Option ℕ) : ℕ × ℕ :=
  let pageSize := getValidPageSize (getNumberFromStringParam pageSizeParam)
  (pageSize, getValidPage (getNumberFromStringParam pageParam) pageSize total)

/-- The page is a number, and not negative. -/
def getOffsetFromPageAndPageSize (page pageSize : ℕ) : ℕ := page * pageSize

/-- `slice(start, end)` -/
def slice {α : Type} (l : List α) (start stop : ℕ) : List α := (l.drop start).take (stop - start)

variable {α : Type} {l : List α} {page pageSize total k k' : ℕ} {param pageSizeParam : SearchParam}

/-! ## Valid pages -/

theorem getNumberFromStringParam_toString (n : ℕ) :
    getNumberFromStringParam (some (toString n)) = some n := by
  unfold getNumberFromStringParam
  rw [Option.bind_some, if_pos (isDigits_toString n), readDigits_toString]

theorem getValidPageSize_bounds (pageSize : Option ℕ) :
    1 ≤ getValidPageSize pageSize ∧ getValidPageSize pageSize ≤ maxPaginationSize := by
  unfold getValidPageSize
  split
  · exact ⟨by decide, by decide⟩
  · exact ⟨by decide, by decide⟩
  · next n hn =>
    have hpos : 1 ≤ n := Nat.one_le_iff_ne_zero.2 hn
    exact ⟨le_min hpos (by decide), min_le_right _ _⟩

theorem getValidPageSize_eq (hpos : 1 ≤ pageSize) (hle : pageSize ≤ maxPaginationSize) :
    getValidPageSize (some pageSize) = pageSize := by
  unfold getValidPageSize
  split
  · next h => cases h
  · next h =>
    cases h
    cases hpos
  · next n _ h =>
    cases h
    exact min_eq_left hle

/-- The greatest page. -/
def lastPage (total pageSize : ℕ) : ℕ := total ⌈/⌉ pageSize - 1

theorem getValidPage_eq (page : Option ℕ) :
    getValidPage page pageSize (some total) = min (lastPage total pageSize) (page.getD 0) := by
  have hzero : (if total = 0 then 0 else total ⌈/⌉ pageSize - 1) = lastPage total pageSize := by
    split_ifs with h
    · rw [h, lastPage, zero_ceilDiv, Nat.zero_sub]
    · rfl
  unfold getValidPage
  split
  · exact (Nat.min_zero _).symm
  · exact (Nat.min_zero _).symm
  · next h => cases h
  · next page total' _ h =>
    cases h
    rw [hzero, Option.getD_some]

/-- The pages up to the greatest one begin in front of the end. -/
theorem mul_lt_of_le_lastPage (hpos : 1 ≤ pageSize) (htotal : 0 < total)
    (hpage : page ≤ lastPage total pageSize) : page * pageSize < total := by
  by_contra hge
  rw [not_lt, Nat.mul_comm, ← ceilDiv_le_iff_le_mul hpos] at hge
  have hceil : 0 < total ⌈/⌉ pageSize := by
    rw [Nat.pos_iff_ne_zero]
    intro hzero
    have hle := (ceilDiv_le_iff_le_mul (c := 0) hpos).1 hzero.le
    omega
  unfold lastPage at hpage
  omega

theorem le_lastPage_mul (hpos : 1 ≤ pageSize) :
    total ≤ (lastPage total pageSize + 1) * pageSize := by
  rw [Nat.mul_comm, ← ceilDiv_le_iff_le_mul hpos]
  unfold lastPage
  omega

theorem slice_eq_page (l : List α) (page pageSize : ℕ) :
    slice l (page * pageSize) ((page + 1) * pageSize) = Sql.page pageSize page l := by
  unfold slice
  rw [Nat.succ_mul, Nat.add_sub_cancel_left]
  rfl

theorem slice_ne_nil (hpos : 1 ≤ pageSize) (h : page * pageSize < l.length) :
    slice l (page * pageSize) ((page + 1) * pageSize) ≠ [] := by
  rw [slice_eq_page, Sql.page]
  intro he
  have hlength := congrArg List.length he
  rw [List.length_take, List.length_drop, List.length_nil] at hlength
  omega

/-! ## Obtainable pages -/

/-- The page is selected by some texts of the query string. -/
def IsObtainable (total pageSize page : ℕ) : Prop :=
  ∃ pageSizeParam pageParam,
    getPageAndPageSizeFromStringParam pageSizeParam pageParam (some total) = (pageSize, page)

theorem getPageAndPageSizeFromStringParam_toString
    (hpage : page ≤ lastPage total (getValidPageSize (getNumberFromStringParam pageSizeParam))) :
    getPageAndPageSizeFromStringParam pageSizeParam (some (toString page)) (some total) =
      (getValidPageSize (getNumberFromStringParam pageSizeParam), page) := by
  unfold getPageAndPageSizeFromStringParam
  dsimp only
  rw [getNumberFromStringParam_toString, getValidPage_eq, Option.getD_some, min_eq_right hpage]

/-- The obtainable pages are those up to the greatest one. -/
theorem isObtainable_iff (hpos : 1 ≤ pageSize) (hle : pageSize ≤ maxPaginationSize) :
    IsObtainable total pageSize page ↔ page ≤ lastPage total pageSize := by
  constructor
  · rintro ⟨pageSizeParam, pageParam, he⟩
    obtain ⟨rfl, rfl⟩ := Prod.mk.inj he
    rw [getValidPage_eq]
    exact min_le_left _ _
  · intro hpage
    have hsize : getValidPageSize (getNumberFromStringParam (some (toString pageSize))) =
        pageSize := by
      rw [getNumberFromStringParam_toString, getValidPageSize_eq hpos hle]
    refine ⟨some (toString pageSize), some (toString page), ?_⟩
    have he := getPageAndPageSizeFromStringParam_toString (hsize.symm ▸ hpage)
    rw [hsize] at he
    exact he

/-- The position is one of the page. -/
def InPage (pageSize page i : ℕ) : Prop := page * pageSize ≤ i ∧ i < (page + 1) * pageSize

theorem InPage.le {i : ℕ} (h : InPage pageSize k i) (h' : InPage pageSize k' i) : k ≤ k' := by
  have hlt : k * pageSize < (k' + 1) * pageSize := h.1.trans_lt h'.2
  exact Nat.le_of_lt_succ (Nat.lt_of_mul_lt_mul_right hlt)

/-- The slices of the pages up to `last` are disjoint and make up the list. -/
structure PartitionsList (l : List α) (pageSize last : ℕ) : Prop where
  disjoint : ∀ k ≤ last, ∀ k' ≤ last, k ≠ k' →
    ∀ i, InPage pageSize k i → ¬ InPage pageSize k' i
  flatten : ((List.range (last + 1)).map fun k =>
    slice l (k * pageSize) ((k + 1) * pageSize)).flatten = l

theorem partitionsList (hpos : 1 ≤ pageSize) (l : List α) :
    PartitionsList l pageSize (lastPage l.length pageSize) where
  disjoint := by
    intro k _ k' _ hne i h h'
    exact hne (Nat.le_antisymm (h.le h') (h'.le h))
  flatten := by
    simp only [slice_eq_page]
    exact Sql.flatten_pages_of_length_le (le_lastPage_mul hpos)

/-- **Page parameters select a valid page.** The size of a page is between 1 and 100, and the page
    is not empty unless the list is; with every size, the greatest page that some parameters select
    is the last one of the list. -/
theorem pages_valid (pageSizeParam pageParam : SearchParam) (l : List α) :
    let (pageSize, page) :=
      getPageAndPageSizeFromStringParam pageSizeParam pageParam (some l.length)
    (1 ≤ pageSize ∧ pageSize ≤ 100 ∧ 0 ≤ page ∧
      (0 < l.length → page * pageSize < l.length ∧
        slice l (page * pageSize) ((page + 1) * pageSize) ≠ [])) ∧
    ∀ pageSize, 1 ≤ pageSize → pageSize ≤ 100 →
      ∃ last, IsGreatest {page | IsObtainable l.length pageSize page} last ∧
        PartitionsList l pageSize last := by
  obtain ⟨hpos, hle⟩ := getValidPageSize_bounds (getNumberFromStringParam pageSizeParam)
  refine ⟨⟨hpos, hle, Nat.zero_le _, fun hlength => ?_⟩, fun pageSize hpos hle => ?_⟩
  · have hlt := mul_lt_of_le_lastPage hpos hlength
      ((getValidPage_eq (getNumberFromStringParam pageParam)).trans_le (min_le_left _ _))
    exact ⟨hlt, slice_ne_nil hpos hlt⟩
  · refine ⟨lastPage l.length pageSize, ⟨?_, ?_⟩, partitionsList hpos l⟩
    · exact (isObtainable_iff hpos hle).2 le_rfl
    · intro page hpage
      exact (isObtainable_iff hpos hle).1 hpage

theorem pages_valid_51 :
    getPageAndPageSizeFromStringParam none (some "7") (some 51) = (25, 2) ∧
    slice (List.range 51) (2 * 25) ((2 + 1) * 25) ≠ [] ∧
    ∃ last, IsGreatest {page | IsObtainable 51 25 page} last ∧
      PartitionsList (List.range 51) 25 last := by
  obtain ⟨⟨-, -, -, hpage⟩, hall⟩ := pages_valid none (some "7") (List.range 51)
  exact ⟨by decide +kernel, (hpage (by decide)).2, hall 25 (by decide) (by decide)⟩

end RollappExplorer
