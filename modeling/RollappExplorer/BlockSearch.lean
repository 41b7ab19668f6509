/-
  The search for a block by its number (`utils/common.ts`, `services/search.service.ts`,
  `services/db/chainInfo.ts`).

  * `isBlockNo`: the texts that are taken for the number of a block; `denotedBlockNo`: the number;
  * `getBlockSearchResult`: the chains that have the block; `searchChainInfoConditions`: the
    conditions of `searchChainInfoByMultipleFields`;
  * `readAsDenoted_iff`: the text is read as the number it denotes iff it consists of digits or
    begins with `0x`, and a double represents the number.
-/
import Mathlib.Data.List.TakeWhile
import RollappExplorer.Js.Number

namespace RollappExplorer

open Js Text

/-! ## Block numbers -/

/-- The characters of a text without a `0x` in front. -/
def withoutHexMark : List Char → List Char
  | '0' :: 'x' :: l => l
  | l => l

/-- `/^\d+$|^(0x)?[\da-fA-F]+$/` -/
def isBlockNo (valueToCheck : String) : Bool :=
  isDigits valueToCheck ||
    withoutHexMark valueToCheck.toList ≠ [] && (withoutHexMark valueToCheck.toList).all isHexDigit

/-- The number that a text denotes: decimal if it consists of digits, and hexadecimal if not. -/
def denotedBlockNo (s : String) : ℕ :=
  if isDigits s then readDigits 10 s.toList else readDigits 16 (withoutHexMark s.toList)

/-- The text begins with `0x`. -/
def HasHexMark (s : String) : Prop := ∃ l, s.toList = '0' :: 'x' :: l

/-! ## Search results -/

/-- `RollappInfo`, with the fields that are searched and shown. -/
structure RollappSearchInfo where
  path : String
  isFavorite : Bool
  name : String
  chainId : String
  latestIndexedBlock : ℤ

structure BlockSearchResult where
  block : Number
  rollappInfos : List RollappSearchInfo

def getBlockSearchResult (searchText : String) (allRollappInfos : List RollappSearchInfo) :
    Option BlockSearchResult :=
  if !isBlockNo searchText then none
  else
    let blockNo := parseInt searchText
    let rollappInfos := allRollappInfos.filter fun i => blockNo.leInt i.latestIndexedBlock
    if rollappInfos.length ≠ 0 then some ⟨blockNo, rollappInfos⟩ else none

/-- A condition on a row of `chain_info`. -/
inductive ChainInfoCondition where
  | chainIdContains (s : String)
  | nameContains (s : String)
  | latestIndexedBlockGte (n : Number)

/-- The conditions of `searchChainInfoByMultipleFields`, of which one must hold. -/
def searchChainInfoConditions (searchValue : String) : List ChainInfoCondition :=
  [.chainIdContains searchValue, .nameContains searchValue] ++
    if isBlockNo searchValue then [.latestIndexedBlockGte (parseInt searchValue)] else []

/-- The text is read as the number it denotes, and the chains with this block are listed. -/
structure ReadAsDenoted (s : String) : Prop where
  parsed : parseInt s = .int (denotedBlockNo s)
  listed : ∀ allRollappInfos,
    (getBlockSearchResult s allRollappInfos).elim [] BlockSearchResult.rollappInfos =
      allRollappInfos.filter fun i => (denotedBlockNo s : ℤ) ≤ i.latestIndexedBlock
  shown : ∀ allRollappInfos, ∀ result ∈ getBlockSearchResult s allRollappInfos,
    result.block = .int (denotedBlockNo s)
  searched : ∀ n, .latestIndexedBlockGte n ∈ searchChainInfoConditions s →
    n = .int (denotedBlockNo s)

variable {s : String} {c : Char} {l : List Char}

theorem ReadAsDenoted.of_parsed (h : isBlockNo s = true)
    (hp : parseInt s = .int (denotedBlockNo s)) : ReadAsDenoted s where
  parsed := hp
  listed := by
    intro allRollappInfos
    unfold getBlockSearchResult
    rw [h, hp]
    simp only [Bool.not_true, Bool.false_eq_true, if_false]
    split_ifs with hempty
    · rfl
    · exact (List.length_eq_zero_iff.1 (not_not.1 hempty)).symm
  shown := by
    intro allRollappInfos result hresult
    unfold getBlockSearchResult at hresult
    rw [h, hp] at hresult
    simp only [Bool.not_true, Bool.false_eq_true, if_false] at hresult
    split_ifs at hresult
    · cases hresult
      rfl
    · cases hresult
  searched := by
    intro n hn
    simp only [searchChainInfoConditions, h, if_true, List.mem_append, List.mem_cons,
      List.not_mem_nil, or_false, reduceCtorEq, false_or,
      ChainInfoCondition.latestIndexedBlockGte.injEq] at hn
    rw [hn, hp]

/-! ## What is parsed -/

theorem isHexDigit_of_isDigit (h : c.isDigit = true) : isHexDigit c = true := by
  unfold isHexDigit hexDigit
  rw [if_pos h]
  rfl

theorem ne_x_of_isHexDigit (h : isHexDigit c = true) : c ≠ 'x' ∧ c ≠ 'X' := by
  constructor
  · rintro rfl
    revert h
    decide
  · rintro rfl
    revert h
    decide

/-- Hexadecimal digits have no mark. -/
theorem takeRadix_of_all (h : ∀ c ∈ l, isHexDigit c = true) : takeRadix l = (10, l) := by
  unfold takeRadix
  split
  · exact absurd rfl (ne_x_of_isHexDigit (h _ (by simp))).1
  · exact absurd rfl (ne_x_of_isHexDigit (h _ (by simp))).2
  · rfl

theorem withoutHexMark_eq_self (h : ¬ HasHexMark s) : withoutHexMark s.toList = s.toList := by
  unfold withoutHexMark
  split
  · next l he => exact absurd ⟨l, he⟩ h
  · rfl

/-- A text of digits. -/
theorem parseInt_of_isDigits (h : isDigits s = true) :
    parseInt s = .ofNat (readDigits 10 s.toList) := by
  obtain ⟨hne, hall⟩ := Bool.and_eq_true_iff.1 h
  have hdigits := List.all_eq_true.1 hall
  have hhex : ∀ c ∈ s.toList, isHexDigit c = true := fun c hc =>
    isHexDigit_of_isDigit (hdigits c hc)
  obtain ⟨c, l, hs⟩ := List.exists_cons_of_ne_nil (of_decide_eq_true hne)
  have htake : s.toList.takeWhile (isDigitOf 10) = s.toList := by
    refine List.takeWhile_eq_self_iff.2 fun c hc => ?_
    rw [isDigitOf_ten, hdigits c hc]
  rw [parseInt_eq hs (hhex c (hs ▸ List.mem_cons_self)) (hs ▸ takeRadix_of_all hhex), ← hs, htake,
    if_neg (of_decide_eq_true hne)]

/-- A text that begins with `0x`. -/
theorem parseInt_of_hexMark (hs : s.toList = '0' :: 'x' :: l) (hne : l ≠ [])
    (hall : ∀ c ∈ l, isHexDigit c = true) : parseInt s = .ofNat (readDigits 16 l) := by
  have htake : l.takeWhile (isDigitOf 16) = l := by
    refine List.takeWhile_eq_self_iff.2 fun c hc => ?_
    rw [isDigitOf_sixteen, hall c hc]
  rw [parseInt_eq hs (by decide) (rfl : takeRadix ('0' :: 'x' :: l) = (16, l)), htake, if_neg hne]

/-- Hexadecimal digits with a letter among them are read up to the letter. -/
theorem parseInt_ne_of_letter (hall : ∀ c ∈ s.toList, isHexDigit c = true)
    (hletter : ∃ c ∈ s.toList, c.isDigit = false) :
    parseInt s ≠ .int (readDigits 16 s.toList) := by
  obtain ⟨c, hc, hdigit⟩ := hletter
  obtain ⟨a, l, hs⟩ := List.exists_cons_of_ne_nil (List.ne_nil_of_mem hc)
  rw [parseInt_eq hs (hall a (hs ▸ List.mem_cons_self)) (hs ▸ takeRadix_of_all hall), ← hs]
  have hsplit := List.takeWhile_append_dropWhile (p := isDigitOf 10) (l := s.toList)
  have hstop := List.head?_dropWhile_not (isDigitOf 10) s.toList
  cases hrest : s.toList.dropWhile (isDigitOf 10) with
  | nil =>
    have hc' := List.dropWhile_eq_nil_iff.1 hrest c hc
    rw [isDigitOf_ten, hdigit] at hc'
    cases hc'
  | cons d rest =>
    rw [hrest] at hsplit hstop
    have hd : d.isDigit = false := (isDigitOf_ten d).symm.trans hstop
    have hmem : d ∈ s.toList := by
      rw [← hsplit]
      exact List.mem_append_right _ List.mem_cons_self
    have hlt := two_mul_readDigits_lt (hall d hmem) hd (s.toList.takeWhile (isDigitOf 10)) rest
    rw [hsplit] at hlt
    split_ifs
    · exact nofun
    · exact Number.ofNat_ne_int hlt

/-- **A text is read as the number it denotes** iff it consists of digits or begins with `0x`, and
    the number is a double. -/
theorem readAsDenoted_iff (s : String) (h : isBlockNo s = true) :
    ReadAsDenoted s ↔ (isDigits s = true ∨ HasHexMark s) ∧ IsDouble (denotedBlockNo s) := by
  have hparsed : ReadAsDenoted s ↔ parseInt s = .int (denotedBlockNo s) :=
    ⟨ReadAsDenoted.parsed, ReadAsDenoted.of_parsed h⟩
  rw [hparsed]
  by_cases hdigits : isDigits s = true
  · rw [parseInt_of_isDigits hdigits, denotedBlockNo, if_pos hdigits, Number.ofNat_eq_int_iff]
    exact ⟨fun hd => ⟨.inl hdigits, hd⟩, And.right⟩
  · have hhex := (Bool.or_eq_true_iff.1 h).resolve_left hdigits
    rw [Bool.and_eq_true_iff, decide_eq_true_eq, List.all_eq_true] at hhex
    obtain ⟨hne, hall⟩ := hhex
    rw [denotedBlockNo, if_neg hdigits]
    by_cases hmark : HasHexMark s
    · obtain ⟨l, hs⟩ := hmark
      have hl : withoutHexMark s.toList = l := by
        rw [hs]
        rfl
      rw [hl] at hne hall ⊢
      rw [parseInt_of_hexMark hs hne hall, Number.ofNat_eq_int_iff]
      exact ⟨fun hd => ⟨.inr ⟨l, hs⟩, hd⟩, And.right⟩
    · rw [withoutHexMark_eq_self hmark] at hne hall ⊢
      have hletter : ∃ c ∈ s.toList, c.isDigit = false := by
        by_contra hnone
        refine hdigits (Bool.and_eq_true_iff.2 ⟨decide_eq_true hne, List.all_eq_true.2 ?_⟩)
        intro c hc
        by_contra hdigit
        exact hnone ⟨c, hc, Bool.eq_false_iff.2 hdigit⟩
      constructor
      · intro he
        exact absurd he (parseInt_ne_of_letter hall hletter)
      · rintro ⟨hor, -⟩
        exact absurd hor (not_or.2 ⟨hdigits, hmark⟩)

theorem readAsDenoted_hex : ReadAsDenoted "0x12ab" :=
  (readAsDenoted_iff "0x12ab" (by decide +kernel)).2
    ⟨.inr ⟨['1', '2', 'a', 'b'], by decide +kernel⟩, by decide +kernel, 4779, 0, by decide,
      by decide +kernel⟩

/-- Hexadecimal digits without `0x` are read up to the first letter. -/
theorem not_readAsDenoted :
    isBlockNo "12ab" = true ∧ denotedBlockNo "12ab" = 4779 ∧ parseInt "12ab" = .int 12 ∧
      ¬ ReadAsDenoted "12ab" := by
  have hparsed : parseInt "12ab" = .int 12 := by decide +kernel
  have hdenoted : denotedBlockNo "12ab" = 4779 := by decide +kernel
  refine ⟨by decide +kernel, hdenoted, hparsed, fun h => ?_⟩
  have he := h.parsed
  rw [hparsed, hdenoted] at he
  cases he

end RollappExplorer
