/-
  The paths of the chains (`utils/rollapp.ts`, `services/chain.service.ts`).

  A chain is looked up by a path that is made of its name.

  * `getRollappInfoByPath`: the first chain with the path; `getRollAppInfoByRollappPath`: among the
    chains that are displayed;
  * `pathLetters`: what is left of a name; `SameLetters`: two names differ in separators only;
  * `getRollappPathByName_eq_iff`: which names have the same path;
  * `reachable_iff`: a chain is found under its own path, which is not `/`, iff its name has a
    letter, a digit or a dash, and no chain in front of it has the same letters.
-/
import Mathlib.Data.List.Forall2
import RollappExplorer.TransactionSearch

namespace RollappExplorer

open Js

/-! ## Lookup -/

def getRollappInfoByPath (u : CaseMapping) (chainInfos : List ChainRow) (path : String) :
    Option RollappSearchInfo :=
  (normalizeRollappsInfo u chainInfos).find? fun rollappInfo => rollappInfo.path = path

/-- The text is a segment of the URL. -/
def getRollAppInfoByRollappPath (u : CaseMapping) (db : SearchDb) (unix : ℤ)
    (rollappPath : String) : Option RollappSearchInfo :=
  getRollappInfoByPath u (getChainInfos db unix) ("/" ++ rollappPath)

/-- The info of a chain. -/
def rollappInfo (u : CaseMapping) (chainInfo : ChainRow) : RollappSearchInfo where
  path := getRollappPathByName u chainInfo.name
  isFavorite := false
  name := chainInfo.name
  chainId := chainInfo.chainId
  latestIndexedBlock := chainInfo.latestIndexedBlock

/-- The chain is found under its own path. -/
def Reachable (u : CaseMapping) (chainInfos : List ChainRow) (x : ChainRow) : Prop :=
  getRollappInfoByPath u chainInfos (getRollappPathByName u x.name) = some (rollappInfo u x) ∧
    getRollappPathByName u x.name ≠ "/"

/-! ## Letters -/

/-- A letter from `a` to `z`, a digit, or a dash. -/
def isPathLetter (c : Char) : Bool := ('a' ≤ c && c ≤ 'z') || c.isDigit || c = '-'

/-- The letters of a name with the white space between them. -/
def pathLetters (u : CaseMapping) (name : String) : List Char :=
  (trim (String.ofList ((u.toLowerCase name).toList.filter fun c =>
    isPathLetter c || isWhiteSpace c))).toList

/-- A dash, or what becomes one. -/
def isSeparator (c : Char) : Bool := c = '-' || isWhiteSpace c

/-- The same letters, with any separators between them. -/
def SameLetters (u : CaseMapping) (name name' : String) : Prop :=
  List.Forall₂ (fun c d => c = d ∨ isSeparator c = true ∧ isSeparator d = true)
    (pathLetters u name) (pathLetters u name')

/-- Some letter is left. -/
def HasLetter (u : CaseMapping) (name : String) : Prop :=
  ∃ c ∈ (u.toLowerCase name).toList, isPathLetter c = true

variable {u : CaseMapping} {name name' : String} {chainInfos : List ChainRow} {x : ChainRow}
  {c d : Char}

theorem isWhiteSpace_of_isPathLetter (h : isPathLetter c = true) : isWhiteSpace c = false := by
  unfold isPathLetter at h
  rw [Bool.or_eq_true, Bool.or_eq_true, Bool.and_eq_true, decide_eq_true_eq, decide_eq_true_eq,
    decide_eq_true_eq] at h
  rcases h with (⟨hlo, hhi⟩ | hdigit) | rfl
  · exact forall_range (P := fun c => isWhiteSpace c = false) hlo hhi (by decide)
  · obtain ⟨hlo, hhi⟩ := Char.isDigit_iff_toNat.1 hdigit
    have hle : '0' ≤ c := hlo
    have hge : c ≤ '9' := hhi
    exact forall_range (P := fun c => isWhiteSpace c = false) hle hge (by decide)
  · decide

/-- A path is `/` with the letters of the name, and dashes for white space. -/
theorem toList_getRollappPathByName (u : CaseMapping) (name : String) :
    (getRollappPathByName u name).toList =
      '/' :: (pathLetters u name).map fun c => if isWhiteSpace c then '-' else c := by
  unfold getRollappPathByName pathLetters isPathLetter
  dsimp only
  -- The first text that is replaced is `/`.
  rw [String.toList_append, String.toList_ofList, String.toList_ofList, List.singleton_append]

theorem dash_eq_iff : (if isWhiteSpace c then '-' else c) = (if isWhiteSpace d then '-' else d) ↔
    c = d ∨ isSeparator c = true ∧ isSeparator d = true := by
  unfold isSeparator
  simp only [Bool.or_eq_true, decide_eq_true_eq]
  by_cases hc : isWhiteSpace c = true
  · by_cases hd : isWhiteSpace d = true
    · simp [hc, hd]
    · have hne : c ≠ d := fun h => hd (h ▸ hc)
      simp [hc, hd, hne, eq_comm]
  · by_cases hd : isWhiteSpace d = true
    · have hne : c ≠ d := fun h => hc (h ▸ hd)
      simp [hc, hd, hne]
    · simp only [hc, hd, or_false, if_neg, Bool.false_eq_true, not_false_eq_true]
      exact ⟨.inl, fun h => h.elim id fun h => h.1.trans h.2.symm⟩

/-- **Names have the same path** iff they have the same letters. -/
theorem getRollappPathByName_eq_iff :
    getRollappPathByName u name = getRollappPathByName u name' ↔ SameLetters u name name' := by
  rw [← String.toList_inj, toList_getRollappPathByName, toList_getRollappPathByName,
    List.cons.injEq, eq_self, true_and, SameLetters, ← List.forall₂_eq_eq_eq,
    List.forall₂_map_left_iff, List.forall₂_map_right_iff]
  simp only [dash_eq_iff]

/-- Trimming leaves nothing of white space only. -/
theorem toList_trim_eq_nil_iff (s : String) :
    (trim s).toList = [] ↔ ∀ c ∈ s.toList, isWhiteSpace c = true := by
  rw [trim, String.toList_ofList, List.reverse_eq_nil_iff, List.dropWhile_eq_nil_iff]
  constructor
  · intro h c hc
    by_contra hspace
    have hne : s.toList.dropWhile isWhiteSpace ≠ [] := fun hnil =>
      hspace (List.dropWhile_eq_nil_iff.1 hnil c hc)
    have hhead := List.head_dropWhile_not isWhiteSpace hne
    rw [h _ (List.mem_reverse.2 (List.head_mem hne))] at hhead
    cases hhead
  · intro h c hc
    exact h c ((List.dropWhile_sublist _).subset (List.mem_reverse.1 hc))

/-- **A path is more than `/`** iff some letter is left. -/
theorem getRollappPathByName_ne_iff : getRollappPathByName u name ≠ "/" ↔ HasLetter u name := by
  have hpath : getRollappPathByName u name = "/" ↔ pathLetters u name = [] := by
    rw [← String.toList_inj, toList_getRollappPathByName]
    show _ = ['/'] ↔ _
    rw [List.cons.injEq, eq_self, true_and, List.map_eq_nil_iff]
  rw [Ne, hpath, pathLetters, toList_trim_eq_nil_iff, String.toList_ofList, HasLetter]
  constructor
  · intro h
    by_contra hnone
    refine h fun c hc => ?_
    obtain ⟨hmem, hkept⟩ := List.mem_filter.1 hc
    exact (Bool.or_eq_true_iff.1 hkept).resolve_left fun hletter => hnone ⟨c, hmem, hletter⟩
  · rintro ⟨c, hc, hletter⟩ hall
    have hspace := hall c (List.mem_filter.2 ⟨hc, by rw [hletter, Bool.true_or]⟩)
    rw [isWhiteSpace_of_isPathLetter hletter] at hspace
    cases hspace

/-! ## Reachable chains -/

theorem getRollappInfoByPath_eq (u : CaseMapping) (chainInfos : List ChainRow) (path : String) :
    getRollappInfoByPath u chainInfos path =
      (chainInfos.find? fun y => getRollappPathByName u y.name = path).map (rollappInfo u) := by
  have hmap : normalizeRollappsInfo u chainInfos = chainInfos.map (rollappInfo u) := rfl
  rw [getRollappInfoByPath, hmap, List.find?_map]
  rfl

/-- The chain that is found has the name of the info. -/
theorem name_of_rollappInfo_eq {y : ChainRow} (h : rollappInfo u y = rollappInfo u x) :
    y.name = x.name := congrArg RollappSearchInfo.name h

/-- Of chains with different names, one is found under its path iff no other path in front of it
    is the same. -/
theorem find_path_iff (hnames : (chainInfos.map ChainRow.name).Nodup) (hx : x ∈ chainInfos) :
    getRollappInfoByPath u chainInfos (getRollappPathByName u x.name) = some (rollappInfo u x) ↔
      ∀ y ∈ chainInfos.takeWhile fun y => y.name ≠ x.name,
        getRollappPathByName u y.name ≠ getRollappPathByName u x.name := by
  rw [getRollappInfoByPath_eq]
  induction chainInfos with
  | nil => cases hx
  | cons z rest ih =>
    obtain ⟨hz, hrest⟩ := List.nodup_cons.1 hnames
    rcases List.mem_cons.1 hx with rfl | hx
    · rw [List.find?_cons_of_pos (by simp), List.takeWhile_cons_of_neg (by simp)]
      exact iff_of_true rfl fun y hy => nomatch hy
    · have hne : z.name ≠ x.name := fun h =>
        hz (h ▸ List.mem_map_of_mem (f := ChainRow.name) hx)
      rw [List.takeWhile_cons_of_pos (by simpa using hne), List.forall_mem_cons]
      by_cases hpath : getRollappPathByName u z.name = getRollappPathByName u x.name
      · rw [List.find?_cons_of_pos (by simpa using hpath), Option.map_some, Option.some.injEq]
        exact iff_of_false (fun h => hne (name_of_rollappInfo_eq h)) fun h => h.1 hpath
      · rw [List.find?_cons_of_neg (by simpa using hpath), ih hrest hx]
        exact ⟨fun h => ⟨hpath, h⟩, fun h => h.2⟩

/-- **A chain is reachable** under its own path iff some letter of its name is left, and no chain
    in front of it has the same letters. -/
theorem reachable_iff (u : CaseMapping) (chainInfos : List ChainRow)
    (hnames : (chainInfos.map ChainRow.name).Nodup) (x : ChainRow) (hx : x ∈ chainInfos) :
    Reachable u chainInfos x ↔ HasLetter u x.name ∧
      ∀ y ∈ chainInfos.takeWhile fun y => y.name ≠ x.name, ¬ SameLetters u y.name x.name := by
  rw [Reachable, find_path_iff hnames hx, getRollappPathByName_ne_iff, and_comm]
  refine and_congr_right fun _ => forall₂_congr fun y _ => ?_
  rw [Ne, getRollappPathByName_eq_iff]

/-- A chain that is reachable is the answer for a segment of the URL. -/
theorem Reachable.segment {db : SearchDb} {unix : ℤ} (h : Reachable u (getChainInfos db unix) x) :
    ∃ segment, segment ≠ "" ∧ getRollappPathByName u x.name = "/" ++ segment ∧
      getRollAppInfoByRollappPath u db unix segment = some (rollappInfo u x) := by
  obtain ⟨hfound, hne⟩ := h
  obtain ⟨segment, hsegment⟩ : ∃ segment, getRollappPathByName u x.name = "/" ++ segment :=
    ⟨_, rfl⟩
  refine ⟨segment, ?_, hsegment, ?_⟩
  · rintro rfl
    exact hne hsegment
  · rw [getRollAppInfoByRollappPath, ← hsegment]
    exact hfound

/-! ## Two chains -/

/-- A chain with a name. -/
def namedChain (name : String) : ChainRow where
  latestIndexedBlock := 0
  postponed := none
  expiryAtEpoch := none
  chainId := name
  name := name

/-- A chain behind another one. -/
theorem reachable_second :
    Reachable default [namedChain "Nim", namedChain "Mande"] (namedChain "Mande") := by
  refine (reachable_iff default _ (by decide) _ (by simp)).2 ⟨⟨'m', ?_⟩, ?_⟩
  · decide +kernel
  · intro y hy
    rw [← getRollappPathByName_eq_iff]
    have hy' : y = namedChain "Nim" := by simpa [namedChain] using hy
    subst hy'
    decide +kernel

/-- **Different names may have one path**: `Nim!` is not found behind `Nim`; and the path of a name
    without letters is `/`. -/
theorem reachable_counterexample :
    ¬ ∀ (u : CaseMapping) (chainInfos : List ChainRow), (chainInfos.map ChainRow.name).Nodup →
      ∀ x ∈ chainInfos, Reachable u chainInfos x := by
  intro h
  obtain ⟨hfound, -⟩ := h default [namedChain "Nim", namedChain "Nim!"] (by decide)
    (namedChain "Nim!") (by simp)
  have hnim : (getRollappInfoByPath default [namedChain "Nim", namedChain "Nim!"]
      (getRollappPathByName default "Nim!")).map RollappSearchInfo.name = some "Nim" := by
    decide +kernel
  have hname := congrArg (Option.map RollappSearchInfo.name) hfound
  exact absurd (hnim.symm.trans hname) (by decide)

end RollappExplorer
