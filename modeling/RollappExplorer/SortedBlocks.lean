/-
  The blocks of an accepted response, in the order in which they are indexed.

  * `parsedHeight`: the height a key of a block denotes;
  * `IndexedInOrder`: the heights increase strictly, and the order in which the map is ranged
    over does not matter;
  * `indexedInOrder_iff`: that is so iff no two keys have the same significant digits.
-/
import Mathlib.Data.List.Sort
import RollappExplorer.Go.Numerals
import RollappExplorer.Indexing
import RollappExplorer.Query

namespace RollappExplorer

open Go

/-! ## What it is for -/

/-- The blocks that the answers to a query give, in whatever order their map is ranged over. -/
structure IndexedInOrder (sdk : Sdk) (chainId : String) (now f t : ℤ)
    (r : ResponseBeTransactionsInBlockRange) : Prop where
  strict : ∀ o res, beTransactionsInBlockRange sdk o chainId now f t r = .ok res →
    (sortBlocks res.blocks).Pairwise fun l r => l.height < r.height
  range : ∀ o res, beTransactionsInBlockRange sdk o chainId now f t r = .ok res →
    ∀ b ∈ sortBlocks res.blocks, f ≤ b.height ∧ b.height ≤ t ∧ b.height ≠ 0
  order : ∀ o o' res res', beTransactionsInBlockRange sdk o chainId now f t r = .ok res →
    beTransactionsInBlockRange sdk o' chainId now f t r = .ok res' →
    sortBlocks res.blocks = sortBlocks res'.blocks

/-! ## Sorting -/

theorem sortBlocks_perm (blocks : List BlockInResponse) : (sortBlocks blocks).Perm blocks :=
  List.perm_insertionSort _ _

/-- Distinct heights are sorted strictly. -/
theorem sortBlocks_strict {blocks : List BlockInResponse} (h : (blocks.map (·.height)).Nodup) :
    (sortBlocks blocks).Pairwise fun l r => l.height < r.height := by
  have hsorted : (sortBlocks blocks).Pairwise fun l r => l.height ≤ r.height :=
    List.pairwise_insertionSort (fun l r : BlockInResponse => l.height ≤ r.height) _
  have hnodup : ((sortBlocks blocks).map (·.height)).Nodup :=
    ((sortBlocks_perm blocks).map _).nodup_iff.2 h
  exact hsorted.imp₂ (fun _ _ hle hne => lt_of_le_of_ne hle hne) (List.pairwise_map.1 hnodup)

/-- **Any sorting by height** of blocks of distinct heights gives the same list. -/
theorem eq_sortBlocks {blocks sorted : List BlockInResponse}
    (h : (blocks.map (·.height)).Nodup) (hperm : sorted.Perm blocks)
    (hsorted : sorted.Pairwise fun l r => l.height ≤ r.height) : sorted = sortBlocks blocks := by
  have hnodup : (sorted.map (·.height)).Nodup := (hperm.map _).nodup_iff.2 h
  have hstrict : sorted.Pairwise fun l r => l.height < r.height :=
    hsorted.imp₂ (fun _ _ hle hne => lt_of_le_of_ne hle hne) (List.pairwise_map.1 hnodup)
  exact List.Perm.eq_of_pairwise (fun _ _ _ _ h h' => absurd h (lt_asymm h')) hstrict
    (sortBlocks_strict h) (hperm.trans (sortBlocks_perm blocks).symm)

/-! ## Keys -/

/-- The height a key denotes. -/
def parsedHeight (key : String) : ℤ := (parseInt64 key).getD 0

section
variable {sdk : Sdk} {o o' : MapOrder} {chainId : String} {now f t : ℤ}
  {r : ResponseBeTransactionsInBlockRange}
  {res res' : TransformedResponseBeTransactionsInBlockRange}

theorem extractBlock_eq {entry : String × BlockInResponse} {b : BlockInResponse}
    (h : extractBlock f t entry = .ok b) :
    b = { entry.2 with height := parsedHeight entry.1 } := by
  obtain ⟨height, hparse, -, -, rfl⟩ := extractBlock_ok h
  rw [parsedHeight, hparse, Option.getD_some]

/-- The blocks are those of the map, in the order of ranging over it. -/
theorem beTransactionsInBlockRange_blocks
    (h : beTransactionsInBlockRange sdk o chainId now f t r = .ok res) :
    (o.range [0] r.blocks.pairs).mapM (extractBlock f t) = .ok res.blocks := by
  unfold beTransactionsInBlockRange at h
  simp only [bind_ok_iff] at h
  obtain ⟨_, -, _, -, _, -, _, -, blocks, hb, hres⟩ := h
  obtain rfl := (Except.ok.inj hres).symm
  exact hb

theorem blocks_eq_map (h : beTransactionsInBlockRange sdk o chainId now f t r = .ok res) :
    res.blocks = (o.range [0] r.blocks.pairs).map fun entry =>
      { entry.2 with height := parsedHeight entry.1 } := by
  have hmap := mapM_ok_iff.1 (beTransactionsInBlockRange_blocks h)
  have hall : ∀ entry ∈ o.range [0] r.blocks.pairs,
      extractBlock f t entry = .ok { entry.2 with height := parsedHeight entry.1 } := by
    intro entry hm
    obtain ⟨b, -, hb⟩ := exists_of_mapM_ok (beTransactionsInBlockRange_blocks h) hm
    rw [hb, extractBlock_eq hb]
  rw [List.map_congr_left hall] at hmap
  refine List.map_injective_iff.2 (fun _ _ => Except.ok.inj) (hmap.symm.trans ?_)
  rw [List.map_map]
  rfl

/-- Two orders of the map give the same blocks. -/
theorem blocks_perm (h : beTransactionsInBlockRange sdk o chainId now f t r = .ok res)
    (h' : beTransactionsInBlockRange sdk o' chainId now f t r = .ok res') :
    res.blocks.Perm res'.blocks := by
  rw [blocks_eq_map h, blocks_eq_map h']
  exact ((o.range_perm _ _).trans (o'.range_perm _ _).symm).map _

/-- Every key of an accepted response denotes a height of the range. -/
theorem parsedHeight_mem (h : beTransactionsInBlockRange sdk o chainId now f t r = .ok res)
    {key : String} (hk : key ∈ r.blocks.keys) :
    parseInt64 key = some (parsedHeight key) ∧ f ≤ parsedHeight key ∧ parsedHeight key ≤ t := by
  obtain ⟨b, hb⟩ := Map.mem_iff_pairs.1 (AList.mem_keys.2 hk)
  obtain ⟨b', -, he⟩ := exists_of_mapM_ok (beTransactionsInBlockRange_blocks h)
    ((o.mem_range [0]).2 hb)
  obtain ⟨height, hparse, hf, ht, -⟩ := extractBlock_ok he
  rw [parsedHeight, hparse, Option.getD_some]
  exact ⟨rfl, hf, ht⟩

/-- The heights are those that the keys denote. -/
theorem heights_perm (h : beTransactionsInBlockRange sdk o chainId now f t r = .ok res) :
    (res.blocks.map (·.height)).Perm (r.blocks.keys.map parsedHeight) := by
  rw [blocks_eq_map h, List.map_map, ← Map.keys_pairs, List.map_map]
  exact (o.range_perm _ _).map _

/-- The heights are distinct iff the significant digits of the keys are. -/
theorem nodup_heights_iff (hf : 1 ≤ f)
    (h : beTransactionsInBlockRange sdk o chainId now f t r = .ok res) :
    (res.blocks.map (·.height)).Nodup ↔ (r.blocks.keys.map significantDigits).Nodup := by
  rw [(heights_perm h).nodup_iff, List.nodup_map_iff_inj_on r.blocks.keys_nodup,
    List.nodup_map_iff_inj_on r.blocks.keys_nodup]
  refine forall₂_congr fun key hk => forall₂_congr fun key' hk' => imp_congr_left ?_
  obtain ⟨hp, hlow, -⟩ := parsedHeight_mem h hk
  obtain ⟨hp', hlow', -⟩ := parsedHeight_mem h hk'
  exact (significantDigits_eq_iff hp hp' (by omega) (by omega)).symm

end

/-- **The blocks are indexed in the order of their heights** iff no two keys have the same
    significant digits. -/
theorem indexedInOrder_iff (sdk : Sdk) (o : MapOrder) (chainId : String) (now f t : ℤ)
    (r : ResponseBeTransactionsInBlockRange)
    (res : TransformedResponseBeTransactionsInBlockRange) (hf : 1 ≤ f)
    (h : beTransactionsInBlockRange sdk o chainId now f t r = .ok res) :
    IndexedInOrder sdk chainId now f t r ↔ (r.blocks.keys.map significantDigits).Nodup := by
  rw [← nodup_heights_iff hf h]
  constructor
  · intro hordered
    have hnodup : ((sortBlocks res.blocks).map (·.height)).Nodup :=
      List.pairwise_map.2 ((hordered.strict o res h).imp ne_of_lt)
    exact ((sortBlocks_perm res.blocks).map _).nodup_iff.1 hnodup
  · intro hnodup
    have hall : ∀ o' res', beTransactionsInBlockRange sdk o' chainId now f t r = .ok res' →
        (res'.blocks.map (·.height)).Nodup := fun o' res' h' =>
      ((blocks_perm h h').map _).nodup_iff.1 hnodup
    constructor
    case strict =>
      intro o' res' h'
      exact sortBlocks_strict (hall o' res' h')
    case range =>
      intro o' res' h' b hb
      have hm : b ∈ res'.blocks := (sortBlocks_perm res'.blocks).mem_iff.1 hb
      obtain ⟨hlow, hhigh, -⟩ := (beTransactionsInBlockRange_ok h').blocks b hm
      exact ⟨hlow, hhigh, by omega⟩
    case order =>
      intro o₁ o₂ res₁ res₂ h₁ h₂
      have hperm := (sortBlocks_perm res₁.blocks).trans (blocks_perm h₁ h₂)
      exact eq_sortBlocks (hall o₂ res₂ h₂) hperm
        ((sortBlocks_strict (hall o₁ res₁ h₁)).imp le_of_lt)

/-! ## Two spellings -/

/-- A response with two blocks without transactions. -/
def responseWithKeys (key key' : String) : ResponseBeTransactionsInBlockRange where
  chainId := "rollappevm_1234-1"
  blocks := AList.insert key' ⟨0, 1720000001, []⟩ (AList.insert key ⟨0, 1720000000, []⟩ ∅)
  missingBlocks := []
  errorBlocks := []

/-- Leading zeros do no harm to distinct heights. -/
theorem indexedInOrder_leadingZero :
    IndexedInOrder bech32Sdk "rollappevm_1234-1" 1720000002 1 10 (responseWithKeys "07" "8") :=
  (indexedInOrder_iff bech32Sdk default "rollappevm_1234-1" 1720000002 1 10
    (responseWithKeys "07" "8") ⟨[⟨8, 1720000001, []⟩, ⟨7, 1720000000, []⟩], [], []⟩ (by decide)
    rfl).2 (by decide)

/-- Two spellings of one height give two blocks of this height. -/
theorem not_indexedInOrder :
    ¬ ∀ (sdk : Sdk) (chainId : String) (now f t : ℤ) (r : ResponseBeTransactionsInBlockRange),
      1 ≤ f → f ≤ t → IndexedInOrder sdk chainId now f t r := by
  intro h
  have hres : beTransactionsInBlockRange bech32Sdk default "rollappevm_1234-1" 1720000002 1 10
      (responseWithKeys "7" "07") =
      .ok ⟨[⟨7, 1720000001, []⟩, ⟨7, 1720000000, []⟩], [], []⟩ := rfl
  have hstrict := (h bech32Sdk "rollappevm_1234-1" 1720000002 1 10 (responseWithKeys "7" "07")
    (by decide) (by decide)).strict default _ hres
  have hsorted : sortBlocks [⟨7, 1720000001, []⟩, ⟨7, 1720000000, []⟩] =
      [⟨7, 1720000001, []⟩, ⟨7, 1720000000, []⟩] := rfl
  rw [hsorted] at hstrict
  have hlt := List.rel_of_pairwise_cons hstrict (List.mem_singleton_self _)
  exact lt_irrefl _ hlt

end RollappExplorer
