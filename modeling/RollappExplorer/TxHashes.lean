/-
  The search for a transaction by its hash (`utils/transaction.ts`, `utils/address.ts`).

  * `isTxHash`, `getTxHashesQueryValue`: what can be searched for, and what is looked up;
  * `Spelling`: a hash with other letter case, and with or without its `0x`;
  * `storedHash_found_iff`: every spelling of a stored hash finds it iff its characters are
    hexadecimal digits.
-/
import Mathlib.Data.List.Forall2
import RollappExplorer.Js.Text
import RollappExplorer.Validation

namespace RollappExplorer

open Js

/-! ## The search -/

/-- `TX_HASH_ADDRESS_REGEX`: `^(0x)?[\da-fA-F]{64}$` -/
def isTxHash (value : String) : Bool :=
  hexPrefixed isHex 64 value.toList || allOfLength isHex 64 value.toList

/-- The hashes that are looked up for a text. -/
def getTxHashesQueryValue (u : CaseMapping) (txHash : String) : List String :=
  if "0x".toList.isPrefixOf txHash.toList then
    [u.toLowerCase txHash, u.toUpperCase (String.ofList (txHash.toList.drop 2))]
  else ["0x" ++ u.toLowerCase txHash, u.toUpperCase txHash]

/-! ## Spellings -/

/-- The characters of a hash without its `0x`. -/
def hashDigits (hash : String) : List Char :=
  match hash.toList with
  | '0' :: 'x' :: l => l
  | l => l

/-- The character, or the other case of a hexadecimal digit. -/
def SameUpToCase (c d : Char) : Prop := c = d ∨ isHex d = true ∧ (c = d.toLower ∨ c = d.toUpper)

/-- The text is the hash with another case of its hexadecimal digits, with or without `0x`. -/
def Spelling (hash s : String) : Prop :=
  ∃ l, List.Forall₂ SameUpToCase l (hashDigits hash) ∧
    (s.toList = l ∨ s.toList = '0' :: 'x' :: l)

/-! ## Letter case -/

variable {c d : Char} {l l' : List Char}

theorem isDigit_iff_range : c.isDigit = true ↔ '0' ≤ c ∧ c ≤ '9' := by
  simp only [Char.isDigit, Bool.and_eq_true, decide_eq_true_eq]
  rfl

/-- A property of the hexadecimal digits. -/
theorem forall_isHex {P : Char → Prop} (hdigit : ∀ n < 10, P (Char.ofNat (48 + n)))
    (hlower : ∀ n < 6, P (Char.ofNat (97 + n))) (hupper : ∀ n < 6, P (Char.ofNat (65 + n)))
    (hd : isHex d = true) : P d := by
  simp only [isHex, isLowerHex, Bool.or_eq_true, Bool.and_eq_true, decide_eq_true_eq,
    isDigit_iff_range] at hd
  rcases hd with (⟨hlo, hhi⟩ | ⟨hlo, hhi⟩) | ⟨hlo, hhi⟩
  · exact forall_range hlo hhi hdigit
  · exact forall_range hlo hhi hlower
  · exact forall_range hlo hhi hupper

theorem isHex_toLower_toUpper (hd : isHex d = true) :
    isHex d.toLower = true ∧ isHex d.toUpper = true := by
  refine forall_isHex (P := fun d => isHex d.toLower = true ∧ isHex d.toUpper = true) ?_ ?_ ?_ hd
  · decide
  · decide
  · decide

theorem upperAlnum_toUpper (hd : isUpperAlnum d = true) :
    d.toUpper = d ∧ d.toLower.toUpper = d ∧ d.toLower.toNat < 128 ∧ d.toNat < 128 ∧ d ≠ 'x' := by
  simp only [isUpperAlnum, Bool.or_eq_true, Bool.and_eq_true, decide_eq_true_eq,
    isDigit_iff_range] at hd
  rcases hd with ⟨hlo, hhi⟩ | ⟨hlo, hhi⟩
  · exact forall_range (P := fun d => d.toUpper = d ∧ d.toLower.toUpper = d ∧
      d.toLower.toNat < 128 ∧ d.toNat < 128 ∧ d ≠ 'x') hlo hhi (by decide)
  · exact forall_range (P := fun d => d.toUpper = d ∧ d.toLower.toUpper = d ∧
      d.toLower.toNat < 128 ∧ d.toNat < 128 ∧ d ≠ 'x') hlo hhi (by decide)

theorem lowerHex_toLower (hd : isLowerHex d = true) :
    d.toLower = d ∧ d.toUpper.toLower = d ∧ d.toUpper.toNat < 128 ∧ d.toNat < 128 := by
  simp only [isLowerHex, Bool.or_eq_true, Bool.and_eq_true, decide_eq_true_eq,
    isDigit_iff_range] at hd
  rcases hd with ⟨hlo, hhi⟩ | ⟨hlo, hhi⟩
  · exact forall_range (P := fun d => d.toLower = d ∧ d.toUpper.toLower = d ∧
      d.toUpper.toNat < 128 ∧ d.toNat < 128) hlo hhi (by decide)
  · exact forall_range (P := fun d => d.toLower = d ∧ d.toUpper.toLower = d ∧
      d.toUpper.toNat < 128 ∧ d.toNat < 128) hlo hhi (by decide)

theorem SameUpToCase.isHex_iff (h : SameUpToCase c d) : isHex c = true ↔ isHex d = true := by
  rcases h with rfl | ⟨hd, rfl | rfl⟩
  · exact Iff.rfl
  · exact iff_of_true (isHex_toLower_toUpper hd).1 hd
  · exact iff_of_true (isHex_toLower_toUpper hd).2 hd

theorem SameUpToCase.upperAlnum (h : SameUpToCase c d) (hd : isUpperAlnum d = true) :
    c.toUpper = d ∧ c.toNat < 128 ∧ c ≠ 'x' := by
  obtain ⟨hupper, hlower, hascii', hascii, hx⟩ := upperAlnum_toUpper hd
  rcases h with rfl | ⟨hhex, rfl | rfl⟩
  · exact ⟨hupper, hascii, hx⟩
  · refine ⟨hlower, hascii', fun he => ?_⟩
    have hhex' := (isHex_toLower_toUpper hhex).1
    rw [he] at hhex'
    cases hhex'
  · rw [hupper]
    exact ⟨hupper, hascii, hx⟩

theorem SameUpToCase.lowerHex (h : SameUpToCase c d) (hd : isLowerHex d = true) :
    c.toLower = d ∧ c.toNat < 128 ∧ c ≠ 'x' := by
  obtain ⟨hlower, hupper, hascii', hascii⟩ := lowerHex_toLower hd
  have hhex : isHex c = true := h.isHex_iff.2 (by rw [isHex, hd, Bool.true_or])
  have hx : c ≠ 'x' := by
    rintro rfl
    cases hhex
  rcases h with rfl | ⟨-, rfl | rfl⟩
  · exact ⟨hlower, hascii, hx⟩
  · rw [hlower]
    exact ⟨hlower, hascii, hlower ▸ hx⟩
  · exact ⟨hupper, hascii', hx⟩

theorem isHex_of_forall₂ (hl : List.Forall₂ SameUpToCase l l')
    (h : ∀ d ∈ l', isHex d = true) : ∀ c ∈ l, isHex c = true := by
  induction hl with
  | nil => exact nofun
  | cons hcd _ ih =>
    obtain ⟨hd, h⟩ := List.forall_mem_cons.1 h
    exact List.forall_mem_cons.2 ⟨hcd.isHex_iff.2 hd, ih h⟩

/-- Characters that are mapped back to those of a hash. -/
theorem map_eq_of_forall₂ {R : Char → Char → Prop} {f : Char → Char} {P : Char → Prop}
    (hl : List.Forall₂ R l l') (hP : ∀ d ∈ l', P d)
    (hf : ∀ c d, R c d → P d → f c = d ∧ c.toNat < 128 ∧ c ≠ 'x') :
    l.map f = l' ∧ (∀ c ∈ l, c.toNat < 128) ∧ 'x' ∉ l := by
  induction hl with
  | nil => exact ⟨rfl, nofun, nofun⟩
  | @cons c d l l' hcd hl ih =>
    obtain ⟨hd, hP⟩ := List.forall_mem_cons.1 hP
    obtain ⟨hmap, hascii, hx⟩ := ih hP
    obtain ⟨hc, hascii', hx'⟩ := hf c d hcd hd
    refine ⟨by rw [List.map_cons, hc, hmap], List.forall_mem_cons.2 ⟨hascii', hascii⟩, fun hm => ?_⟩
    rcases List.mem_cons.1 hm with rfl | hm
    · exact hx' rfl
    · exact hx hm

/-! ## Hashes -/

/-- The forms of a stored hash. -/
theorem stored_cases {hash : String}
    (h : isValidCosmosTransactionHash hash = true ∨ isValidEvmTransactionHash hash = true) :
    (hashDigits hash).length = 64 ∧
      ((hash.toList = hashDigits hash ∧ ∀ c ∈ hashDigits hash, isUpperAlnum c = true) ∨
        (hash.toList = '0' :: 'x' :: hashDigits hash ∧
          ∀ c ∈ hashDigits hash, isLowerHex c = true)) := by
  rcases h with h | h
  · simp only [isValidCosmosTransactionHash, allOfLength, Bool.and_eq_true, beq_iff_eq,
      List.all_eq_true] at h
    have hdigits : hashDigits hash = hash.toList := by
      unfold hashDigits
      split
      · next l hl =>
        have hx := h.2 'x' (by rw [hl]; simp)
        cases hx
      · rfl
    rw [hdigits]
    exact ⟨h.1, .inl ⟨rfl, h.2⟩⟩
  · unfold isValidEvmTransactionHash hexPrefixed at h
    unfold hashDigits
    split at h
    · next l hl =>
      simp only [allOfLength, Bool.and_eq_true, beq_iff_eq, List.all_eq_true] at h
      rw [hl]
      exact ⟨h.1, .inr ⟨rfl, h.2⟩⟩
    · cases h

theorem isTxHash_iff {s : String} (hx : 'x' ∉ l) (hlength : l.length = 64)
    (hs : s.toList = l ∨ s.toList = '0' :: 'x' :: l) :
    isTxHash s = true ↔ ∀ c ∈ l, isHex c = true := by
  have hall : allOfLength isHex 64 l = true ↔ ∀ c ∈ l, isHex c = true := by
    simp only [allOfLength, hlength, beq_self_eq_true, Bool.true_and, List.all_eq_true]
  unfold isTxHash
  rcases hs with hs | hs
  · have hnot : hexPrefixed isHex 64 l = false := by
      unfold hexPrefixed
      split
      · next l' => exact absurd (by simp) hx
      · rfl
    rw [hs, hnot, Bool.false_or, hall]
  · have hnot : allOfLength isHex 64 ('0' :: 'x' :: l) = false := by
      unfold allOfLength
      rw [List.length_cons, List.length_cons, hlength]
      rfl
    rw [hs, hnot, Bool.or_false]
    exact hall

/-- What is looked up for a text: the digits in lower case behind a `0x`, and those in upper
    case. -/
theorem getTxHashesQueryValue_eq (u : CaseMapping) {s : String} (hx : 'x' ∉ l)
    (hascii : ∀ c ∈ l, c.toNat < 128) (hs : s.toList = l ∨ s.toList = '0' :: 'x' :: l) :
    getTxHashesQueryValue u s = [String.ofList ('0' :: 'x' :: l.map Char.toLower),
      String.ofList (l.map Char.toUpper)] := by
  have hzeroX : "0x".toList = ['0', 'x'] := by decide
  unfold getTxHashesQueryValue
  rw [hzeroX]
  rcases hs with hs | hs
  · have hnot : ['0', 'x'].isPrefixOf l = false := by
      refine Bool.eq_false_iff.2 fun h => ?_
      obtain ⟨l', hl'⟩ := List.isPrefixOf_iff_prefix.1 h
      exact hx (hl' ▸ by simp)
    have hs' : IsAscii s := by rwa [IsAscii, hs]
    rw [hs, hnot, if_neg Bool.false_ne_true]
    refine congrArg₂ (fun a b => [a, b]) (String.toList_injective ?_) (String.toList_injective ?_)
    · rw [String.toList_append, u.toLowerCase_ascii s hs', hs, hzeroX, String.toList_ofList]
      rfl
    · rw [u.toUpperCase_ascii s hs', hs, String.toList_ofList]
  · have hs' : IsAscii s := by
      rw [IsAscii, hs]
      exact List.forall_mem_cons.2 ⟨by decide, List.forall_mem_cons.2 ⟨by decide, hascii⟩⟩
    have hl' : IsAscii (String.ofList l) := by rwa [IsAscii, String.toList_ofList]
    have hpos : ['0', 'x'].isPrefixOf ('0' :: 'x' :: l) = true :=
      List.isPrefixOf_iff_prefix.2 ⟨l, rfl⟩
    rw [hs, hpos, if_pos rfl]
    refine congrArg₂ (fun a b => [a, b]) (String.toList_injective ?_) (String.toList_injective ?_)
    · rw [u.toLowerCase_ascii s hs', hs, String.toList_ofList]
      rfl
    · show (u.toUpperCase (String.ofList l)).toList = _
      rw [u.toUpperCase_ascii _ hl', String.toList_ofList, String.toList_ofList]

/-- **Searching for a stored hash.** Every spelling of it is accepted and looks it up iff its
    characters are hexadecimal digits. -/
theorem storedHash_found_iff (u : CaseMapping) (hash : String)
    (h : isValidCosmosTransactionHash hash = true ∨ isValidEvmTransactionHash hash = true) :
    (∀ s, Spelling hash s → isTxHash s = true ∧ hash ∈ getTxHashesQueryValue u s) ↔
      ∀ c ∈ hashDigits hash, isHex c = true := by
  obtain ⟨hlength, hcases⟩ := stored_cases h
  -- a spelling is mapped back to the hash
  have hspelling : ∀ l, List.Forall₂ SameUpToCase l (hashDigits hash) →
      'x' ∉ l ∧ (∀ c ∈ l, c.toNat < 128) ∧
        hash ∈ [String.ofList ('0' :: 'x' :: l.map Char.toLower),
          String.ofList (l.map Char.toUpper)] := by
    intro l hl
    rcases hcases with ⟨hhash, hchars⟩ | ⟨hhash, hchars⟩
    · obtain ⟨hmap, hascii, hx⟩ := map_eq_of_forall₂ hl hchars fun _ _ => SameUpToCase.upperAlnum
      refine ⟨hx, hascii, List.mem_pair.2 (.inr ?_)⟩
      rw [hmap, ← hhash, String.ofList_toList]
    · obtain ⟨hmap, hascii, hx⟩ := map_eq_of_forall₂ hl hchars fun _ _ => SameUpToCase.lowerHex
      refine ⟨hx, hascii, List.mem_pair.2 (.inl ?_)⟩
      rw [hmap, ← hhash, String.ofList_toList]
  have hsame : List.Forall₂ SameUpToCase (hashDigits hash) (hashDigits hash) :=
    List.forall₂_same.2 fun _ _ => .inl rfl
  have hself : hash.toList = hashDigits hash ∨ hash.toList = '0' :: 'x' :: hashDigits hash :=
    hcases.imp And.left And.left
  constructor
  · intro hfound
    obtain ⟨hx, -, -⟩ := hspelling _ hsame
    exact (isTxHash_iff hx hlength hself).1 (hfound hash ⟨_, hsame, hself⟩).1
  · rintro hhex s ⟨l, hl, hs⟩
    obtain ⟨hx, hascii, hmem⟩ := hspelling l hl
    refine ⟨(isTxHash_iff hx (hl.length_eq.trans hlength) hs).2 (isHex_of_forall₂ hl hhex), ?_⟩
    rw [getTxHashesQueryValue_eq u hx hascii hs]
    exact hmem

/-- An EVM hash is found without its `0x`. -/
theorem storedHash_found_evm :
    isTxHash "00000000000000000000000000000000000000000000000000000000000000ab" = true ∧
      "0x00000000000000000000000000000000000000000000000000000000000000ab" ∈ getTxHashesQueryValue
        default "00000000000000000000000000000000000000000000000000000000000000ab" :=
  (storedHash_found_iff default _ (.inr (by decide))).2 (List.all_eq_true.1 (by decide)) _
    ⟨_, List.forall₂_same.2 fun _ _ => .inl rfl, .inl (by decide)⟩

/-- A hash that the indexer accepts although it is not hexadecimal. -/
def lettersHash : String := String.ofList (List.replicate 64 'G')

theorem not_storedHash_found : isValidCosmosTransactionHash lettersHash = true ∧
    ¬ ∀ s, Spelling lettersHash s →
      isTxHash s = true ∧ lettersHash ∈ getTxHashesQueryValue default s := by
  have hdigits : hashDigits lettersHash = List.replicate 64 'G' := by decide
  have hspelling : Spelling lettersHash lettersHash := by
    refine ⟨List.replicate 64 'G', ?_, .inl String.toList_ofList⟩
    rw [hdigits]
    exact List.forall₂_same.2 fun _ _ => .inl rfl
  have hrejected : isTxHash lettersHash = false := by decide
  refine ⟨by decide, fun hfound => ?_⟩
  rw [(hfound _ hspelling).1] at hrejected
  cases hrejected

end RollappExplorer
