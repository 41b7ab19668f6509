/-
  The chain list of the configuration (`types/chain_list.go`).

  * `ChainList.validate`: the checks of a list, which go on after an error;
  * `ChainList.validate_chainIds`: the chain ids of an accepted list are distinct.
-/
import Mathlib.Data.List.Sort
import RollappExplorer.Go.Error
import RollappExplorer.Go.Map
import RollappExplorer.Go.Strings

namespace RollappExplorer

open Go

structure ChainConfig where
  chainId : String
  beJsonRpcUrls : List String
  disable : Bool

/-- `map[string]ChainConfig`, by the names of the chains. -/
abbrev ChainList := Map String ChainConfig

/-- `MergeError(err, e)` -/
def mergeError (err : Option Error) (e : Error) : Option Error :=
  match err with
  | none => some e
  | some err => some s!"{err}\n---\n{e}"

/-- A step of the loop over the URLs of a chain: the error so far, and the URLs seen. -/
def validateUrl (isUrl : String → Bool) : Option Error × List String → String →
    Option Error × List String
  | (err, uniqueTracker), ep =>
    if len ep < 1 then
      (mergeError err "empty record for URL of Block Explorer Json-RPC", uniqueTracker)
    else if !isUrl ep then
      (mergeError err s!"invalid URL for Block Explorer Json-RPC: {ep}", uniqueTracker)
    else if ep ∈ uniqueTracker then
      (mergeError err s!"duplicated URL for Block Explorer Json-RPC: {ep}", uniqueTracker)
    else (err, ep :: uniqueTracker)

def ChainConfig.validate (isUrl : String → Bool) (cc : ChainConfig) : Option Error :=
  if len cc.chainId < 1 then some "chain_id is missing"
  else if cc.beJsonRpcUrls.length < 1 then
    some "require at least one URL for Block Explorer Json-RPC"
  else (cc.beJsonRpcUrls.foldl (validateUrl isUrl) (none, [])).1

/-- A step of the loop over the chains: the error so far, and the chain ids seen. -/
def validateChain (isUrl : String → Bool) : Option Error × List String → String × ChainConfig →
    Option Error × List String
  | (err, uniqueChainIdTracker), (chainName, chainConfig) =>
    let err := match chainConfig.validate isUrl with
      | none => err
      | some validationErr =>
        mergeError err s!"chain '{chainName}' has invalid configuration: {validationErr}"
    if chainConfig.chainId ∈ uniqueChainIdTracker then
      (mergeError err s!"duplicated chain-id {chainConfig.chainId}", uniqueChainIdTracker)
    else (err, chainConfig.chainId :: uniqueChainIdTracker)

/-- `ChainList.Validate` -/
def ChainList.validate (isUrl : String → Bool) (o : MapOrder) (cl : ChainList) : Option Error :=
  ((o.range [] cl.pairs).foldl (validateChain isUrl) (none, [])).1

variable {isUrl : String → Bool}

theorem mergeError_ne_none (err : Option Error) (e : Error) : mergeError err e ≠ none := by
  cases err with
  | none => exact Option.some_ne_none _
  | some err => exact Option.some_ne_none _

/-- A step without an error has seen a new chain id, of a valid configuration. -/
theorem validateChain_none {s : Option Error × List String} {chain : String × ChainConfig}
    (h : (validateChain isUrl s chain).1 = none) :
    s.1 = none ∧ chain.2.validate isUrl = none ∧ chain.2.chainId ∉ s.2 ∧
      (validateChain isUrl s chain).2 = chain.2.chainId :: s.2 := by
  obtain ⟨err, uniqueChainIdTracker⟩ := s
  obtain ⟨chainName, chainConfig⟩ := chain
  unfold validateChain at h ⊢
  dsimp only at h ⊢
  split_ifs at h ⊢ with hseen
  · exact absurd h (mergeError_ne_none _ _)
  · cases hv : chainConfig.validate isUrl with
    | none =>
      rw [hv] at h
      exact ⟨h, rfl, hseen, rfl⟩
    | some validationErr =>
      rw [hv] at h
      exact absurd h (mergeError_ne_none _ _)

theorem foldl_validateChain_none {chains : List (String × ChainConfig)}
    {s : Option Error × List String} (h : (chains.foldl (validateChain isUrl) s).1 = none) :
    s.1 = none ∧ (∀ chain ∈ chains, chain.2.chainId ∉ s.2) ∧
      (chains.map fun chain => chain.2.chainId).Nodup := by
  induction chains generalizing s with
  | nil => exact ⟨h, fun chain hc => (nomatch hc), List.nodup_nil⟩
  | cons chain chains ih =>
    obtain ⟨herr, hseen, hnodup⟩ := ih h
    obtain ⟨hs, -, hnew, hnext⟩ := validateChain_none herr
    rw [hnext] at hseen
    refine ⟨hs, fun c hc => ?_, List.nodup_cons.2 ⟨fun hmem => ?_, hnodup⟩⟩
    · rcases List.mem_cons.1 hc with rfl | hc
      · exact hnew
      · exact fun hmem => hseen c hc (List.mem_cons_of_mem _ hmem)
    · obtain ⟨c, hc, he⟩ := List.mem_map.1 hmem
      exact hseen c hc (he ▸ List.mem_cons_self)

/-- **The chain ids of an accepted list** are distinct. -/
theorem ChainList.validate_chainIds {o : MapOrder} {cl : ChainList}
    (h : ChainList.validate isUrl o cl = none) {name name' : String} {c c' : ChainConfig}
    (hc : cl.lookup name = some c) (hc' : cl.lookup name' = some c')
    (he : c.chainId = c'.chainId) : name = name' := by
  have hnodup := (foldl_validateChain_none h).2.2
  have hmem := (MapOrder.mem_range o []).2 (Map.mem_pairs.2 hc)
  have hmem' := (MapOrder.mem_range o []).2 (Map.mem_pairs.2 hc')
  exact congrArg Prod.fst (List.inj_on_of_nodup_map hnodup hmem hmem' he)

end RollappExplorer
