/-
  The indexer manager (`services/per_chain_indexer/manager.go`).

  * `DefaultIndexerManager.reload`: the three steps of a reload;
  * `DefaultIndexerManager.running_reload`: what a reload does, by the names of the chains:
    an indexer that keeps running keeps its chain id;
  * `reloads_running`: the indexers that run after any number of reloads.
-/
import RollappExplorer.ChainList

namespace RollappExplorer

open Go

/-! ## Indexers -/

/-- What the manager sees of an indexer (`defaultIndexer`). -/
structure DefaultIndexer where
  chainName : String
  chainId : String
  chainConfig : ChainConfig
  activeJsonRpcUrl : String
  lastUrlCheck : Option ℤ
  shutdown : Bool

def newIndexer (chainName : String) (chainConfig : ChainConfig) : DefaultIndexer where
  chainName := chainName
  chainId := chainConfig.chainId
  chainConfig := chainConfig
  activeJsonRpcUrl := ""
  lastUrlCheck := none
  shutdown := false

def sortStrings (arr : List String) : List String := arr.insertionSort (· ≤ ·)

/-- `AreSortedStringArraysEquals` -/
def areSortedStringArraysEquals (arr1 arr2 : List String) : Bool :=
  if arr1.length ≠ arr2.length then false
  else if arr1.length = 0 then true
  else sortStrings arr1 = sortStrings arr2

namespace DefaultIndexer

def setShutdown (d : DefaultIndexer) : DefaultIndexer := { d with shutdown := true }

def forceResetActiveJsonRpcUrl (d : DefaultIndexer) : DefaultIndexer :=
  { d with activeJsonRpcUrl := "", lastUrlCheck := none }

/-- `Reload`; the comparison of two arrays of the same length sorts them in place. -/
def reload (d : DefaultIndexer) (chainConfig : ChainConfig) : Except Error DefaultIndexer :=
  if chainConfig.chainId ≠ d.chainId then
    .error s!"mis-match chain-id, expected {d.chainId}, got new {chainConfig.chainId}"
  else
    let oldUrls := d.chainConfig.beJsonRpcUrls
    let urls := chainConfig.beJsonRpcUrls
    -- urls changed, force health-check URLs
    let d := if areSortedStringArraysEquals oldUrls urls then d else d.forceResetActiveJsonRpcUrl
    .ok { d with chainConfig := { chainConfig with
      beJsonRpcUrls := if oldUrls.length = urls.length then sortStrings urls else urls } }

/-- The indexer after a reload, which is only logged if it fails. -/
def reloaded (d : DefaultIndexer) (chainConfig : ChainConfig) : DefaultIndexer :=
  match d.reload chainConfig with
  | .error _ => d
  | .ok d' => d'

/-- A reload changes neither the name, nor the chain id, nor the flag. -/
theorem reloaded_kept (d : DefaultIndexer) (chainConfig : ChainConfig) :
    (d.reloaded chainConfig).chainName = d.chainName ∧
      (d.reloaded chainConfig).chainId = d.chainId ∧
      (d.reloaded chainConfig).shutdown = d.shutdown := by
  unfold reloaded reload
  by_cases hid : chainConfig.chainId ≠ d.chainId
  · rw [if_pos hid]
    exact ⟨rfl, rfl, rfl⟩
  · rw [if_neg hid]
    dsimp only
    split_ifs <;> exact ⟨rfl, rfl, rfl⟩

end DefaultIndexer

/-! ## The manager -/

/-- The configuration of an enabled chain. -/
def ChainList.enabled (cl : ChainList) (name : String) : Option ChainConfig :=
  (cl.lookup name).filter fun c => !c.disable

/-- The manager, with all indexers launched so far; an indexer is referred to by its
    position. -/
structure DefaultIndexerManager where
  indexers : List DefaultIndexer
  indexerByChainName : Map String ℕ

namespace DefaultIndexerManager

def new : DefaultIndexerManager := ⟨[], ∅⟩

/-- Step 1: shut down the indexers that are not used any more. -/
def shutdownUnused (o : MapOrder) (cl : ChainList) (m : DefaultIndexerManager) :
    DefaultIndexerManager :=
  let unused := (o.range [0] m.indexerByChainName.pairs).filter fun (name, _) =>
    (ChainList.enabled cl name).isNone
  { indexers := (unused.map Prod.snd).foldl
      (fun indexers i => indexers.modify i DefaultIndexer.setShutdown) m.indexers
    indexerByChainName := (unused.map Prod.fst).foldl (fun byName name => byName.erase name)
      m.indexerByChainName }

def launch (m : DefaultIndexerManager) (chain : String × ChainConfig) : DefaultIndexerManager where
  indexers := m.indexers ++ [newIndexer chain.1 chain.2]
  indexerByChainName := m.indexerByChainName.insert chain.1 m.indexers.length

/-- Step 2: launch indexers for new records. -/
def launchNew (o : MapOrder) (cl : ChainList) (m : DefaultIndexerManager) :
    DefaultIndexerManager :=
  ((o.range [1] cl.pairs).filter fun (name, c) =>
    (m.indexerByChainName.lookup name).isNone && !c.disable).foldl launch m

def update (m : DefaultIndexerManager) (chain : String × ChainConfig) : DefaultIndexerManager :=
  match m.indexerByChainName.lookup chain.1 with
  | none => m
  | some i =>
    if chain.2.disable then m
    else { m with indexers := m.indexers.modify i fun d => d.reloaded chain.2 }

/-- Step 3: update the configuration of the existing indexers. -/
def updateExisting (o : MapOrder) (cl : ChainList) (m : DefaultIndexerManager) :
    DefaultIndexerManager :=
  (o.range [2] cl.pairs).foldl update m

/-- `Reload` -/
def reload (o : MapOrder) (cl : ChainList) (m : DefaultIndexerManager) : DefaultIndexerManager :=
  updateExisting o cl (launchNew o cl (shutdownUnused o cl m))

/-- The chain id of the indexer that runs under a name. -/
def running (m : DefaultIndexerManager) (name : String) : Option String :=
  (m.indexerByChainName.lookup name).bind fun i => m.indexers[i]?.map (·.chainId)

/-- The indexer at the position is not flagged as shut down. -/
def Unflagged (m : DefaultIndexerManager) (i : ℕ) (d : DefaultIndexer) : Prop :=
  m.indexers[i]? = some d ∧ d.shutdown = false

/-- The indexers that are not flagged as shut down are those registered under their
    names. -/
structure Linked (m : DefaultIndexerManager) : Prop where
  registered : ∀ name i, m.indexerByChainName.lookup name = some i →
    ∃ d, m.indexers[i]? = some d ∧ d.chainName = name ∧ d.shutdown = false
  unflagged : ∀ i d, m.indexers[i]? = some d → d.shutdown = false →
    m.indexerByChainName.lookup d.chainName = some i

theorem linked_new : new.Linked where
  registered _ _ h := nomatch h
  unflagged _ _ h := nomatch h

/-! ## The steps of a reload -/

variable {m : DefaultIndexerManager} {cl : ChainList} {o : MapOrder}

theorem getElem?_foldl_modify {α : Type} {f : α → α} (hf : ∀ a, f (f a) = f a) {is : List ℕ}
    {l : List α} {j : ℕ} : (is.foldl (fun l i => l.modify i f) l)[j]? =
      l[j]?.map (if j ∈ is then f else id) := by
  induction is generalizing l with
  | nil => simp
  | cons i is ih =>
    rw [List.foldl_cons, ih, List.getElem?_modify]
    cases l[j]? with
    | none => rfl
    | some a =>
      by_cases hi : i = j
      · subst hi
        by_cases hm : i ∈ is
        · simp [hm, hf]
        · simp [hm]
      · have hi' : ¬ j = i := fun h => hi h.symm
        simp [hi, hi']

theorem lookup_foldl_erase {κ υ : Type} [DecidableEq κ] {ks : List κ} {rows : Map κ υ} {k : κ} :
    (ks.foldl (fun rows k => rows.erase k) rows).lookup k =
      if k ∈ ks then none else rows.lookup k := by
  induction ks generalizing rows with
  | nil => rfl
  | cons k' ks ih =>
    rw [List.foldl_cons, ih]
    by_cases hk : k = k'
    · subst hk
      simp [AList.lookup_erase]
    · simp [hk, AList.lookup_erase_ne hk]

theorem lookup_shutdownUnused {name : String} :
    (m.shutdownUnused o cl).indexerByChainName.lookup name =
      if (ChainList.enabled cl name).isNone then none else m.indexerByChainName.lookup name := by
  show AList.lookup name (List.foldl _ _ _) = _
  rw [lookup_foldl_erase]
  cases hl : m.indexerByChainName.lookup name with
  | none => simp
  | some i =>
    have hmem := (MapOrder.mem_range o [0]).2 (Map.mem_pairs.2 hl)
    by_cases he : (ChainList.enabled cl name).isNone
    · rw [if_pos he, if_pos]
      exact List.mem_map.2 ⟨(name, i), List.mem_filter.2 ⟨hmem, he⟩, rfl⟩
    · rw [if_neg he, if_neg]
      intro hunused
      obtain ⟨⟨name', i'⟩, hu, rfl⟩ := List.mem_map.1 hunused
      exact he (List.mem_filter.1 hu).2

/-- An indexer is unused if its name is not enabled. -/
def Unused (m : DefaultIndexerManager) (cl : ChainList) (i : ℕ) : Prop :=
  ∃ name, m.indexerByChainName.lookup name = some i ∧ ChainList.enabled cl name = none

theorem getElem?_shutdownUnused {i : ℕ} {d' : DefaultIndexer} :
    (m.shutdownUnused o cl).indexers[i]? = some d' ↔ ∃ d, m.indexers[i]? = some d ∧
      (Unused m cl i ∧ d' = d.setShutdown ∨ ¬ Unused m cl i ∧ d' = d) := by
  have hunused : i ∈ (((o.range [0] m.indexerByChainName.pairs).filter fun (name, _) =>
      (ChainList.enabled cl name).isNone).map Prod.snd) ↔ Unused m cl i := by
    constructor
    · intro h
      obtain ⟨⟨name, i'⟩, hu, rfl⟩ := List.mem_map.1 h
      obtain ⟨hmem, he⟩ := List.mem_filter.1 hu
      exact ⟨name, Map.mem_pairs.1 ((MapOrder.mem_range o [0]).1 hmem),
        Option.isNone_iff_eq_none.1 he⟩
    · rintro ⟨name, hl, he⟩
      exact List.mem_map.2 ⟨(name, i), List.mem_filter.2
        ⟨(MapOrder.mem_range o [0]).2 (Map.mem_pairs.2 hl), Option.isNone_iff_eq_none.2 he⟩, rfl⟩
  show (List.foldl _ _ _)[i]? = _ ↔ _
  rw [getElem?_foldl_modify (f := DefaultIndexer.setShutdown) (fun d => rfl),
    Option.map_eq_some_iff]
  refine exists_congr fun d => and_congr_right fun _ => ?_
  by_cases hu : Unused m cl i
  · simp [hunused, hu, eq_comm]
  · simp [hunused, hu, eq_comm]

theorem Linked.shutdownUnused (h : m.Linked) : (m.shutdownUnused o cl).Linked where
  registered name i hl := by
    rw [lookup_shutdownUnused] at hl
    split_ifs at hl with he
    obtain ⟨d, hd, hname, hflag⟩ := h.registered name i hl
    refine ⟨d, getElem?_shutdownUnused.2 ⟨d, hd, Or.inr ⟨?_, rfl⟩⟩, hname, hflag⟩
    rintro ⟨name', hl', he'⟩
    obtain ⟨d', hd', hname', -⟩ := h.registered name' i hl'
    obtain rfl : d = d' := Option.some.inj (hd.symm.trans hd')
    exact he (Option.isNone_iff_eq_none.2 (hname ▸ hname' ▸ he'))
  unflagged i d' hd' hflag := by
    obtain ⟨d, hd, ⟨-, rfl⟩ | ⟨hused, rfl⟩⟩ := getElem?_shutdownUnused.1 hd'
    · cases hflag
    · have hl := h.unflagged i _ hd hflag
      rw [lookup_shutdownUnused, if_neg, hl]
      exact fun he => hused ⟨_, hl, Option.isNone_iff_eq_none.1 he⟩

theorem running_shutdownUnused {name : String} : (m.shutdownUnused o cl).running name =
    if (ChainList.enabled cl name).isNone then none else m.running name := by
  unfold running
  rw [lookup_shutdownUnused]
  split_ifs with he
  · rfl
  · cases hl : m.indexerByChainName.lookup name with
    | none => rfl
    | some i =>
      show (List.foldl _ _ _)[i]?.map _ = _
      rw [getElem?_foldl_modify (f := DefaultIndexer.setShutdown) (fun d => rfl), Option.map_map]
      refine congrArg (fun f => Option.map f m.indexers[i]?) (funext fun d => ?_)
      rw [Function.comp_apply]
      split_ifs <;> rfl

/-! ### Launching -/

theorem Linked.lt_length (h : m.Linked) {name : String} {i : ℕ}
    (hl : m.indexerByChainName.lookup name = some i) : i < m.indexers.length := by
  obtain ⟨d, hd, -⟩ := h.registered name i hl
  exact (List.getElem?_eq_some_iff.1 hd).1

theorem Linked.launch (h : m.Linked) {chain : String × ChainConfig}
    (hfree : m.indexerByChainName.lookup chain.1 = none) : (m.launch chain).Linked where
  registered name i hl := by
    by_cases hname : name = chain.1
    · subst hname
      obtain rfl := Option.some.inj ((AList.lookup_insert _).symm.trans hl)
      exact ⟨newIndexer chain.1 chain.2, List.getElem?_concat_length, rfl, rfl⟩
    · have hl' : m.indexerByChainName.lookup name = some i :=
        (AList.lookup_insert_ne hname).symm.trans hl
      obtain ⟨d, hd, hrest⟩ := h.registered name i hl'
      exact ⟨d, (List.getElem?_append_left (h.lt_length hl')).trans hd, hrest⟩
  unflagged i d hd hflag := by
    by_cases hi : i < m.indexers.length
    · have hd' : m.indexers[i]? = some d := (List.getElem?_append_left hi).symm.trans hd
      have hl := h.unflagged i d hd' hflag
      have hname : d.chainName ≠ chain.1 := by
        intro he
        rw [he, hfree] at hl
        cases hl
      exact (AList.lookup_insert_ne hname).trans hl
    · have hd' := (List.getElem?_append_right (not_lt.1 hi)).symm.trans hd
      cases hk : i - m.indexers.length with
      | zero =>
        rw [hk] at hd'
        obtain rfl := Option.some.inj hd'
        obtain rfl : i = m.indexers.length := by omega
        exact AList.lookup_insert _
      | succ k =>
        rw [hk] at hd'
        cases hd'

theorem running_launch (h : m.Linked) {chain : String × ChainConfig} {name : String} :
    (m.launch chain).running name =
      if name = chain.1 then some chain.2.chainId else m.running name := by
  by_cases hname : name = chain.1
  · subst hname
    rw [if_pos rfl]
    show (AList.lookup _ (AList.insert _ _ _)).bind _ = _
    rw [AList.lookup_insert, Option.bind_some]
    show (m.indexers ++ [_])[m.indexers.length]?.map _ = _
    rw [List.getElem?_concat_length]
    rfl
  · rw [if_neg hname]
    show (AList.lookup _ (AList.insert _ _ _)).bind _ = _
    rw [AList.lookup_insert_ne hname]
    cases hl : m.indexerByChainName.lookup name with
    | none => rw [running, hl]; rfl
    | some i =>
      rw [running, hl, Option.bind_some, Option.bind_some]
      show (m.indexers ++ [_])[i]?.map _ = _
      rw [List.getElem?_append_left (h.lt_length hl)]

/-- Launching indexers under names that are not registered. -/
theorem foldl_launch {chains : List (String × ChainConfig)} (h : m.Linked)
    (hnodup : (chains.map Prod.fst).Nodup)
    (hfree : ∀ chain ∈ chains, m.indexerByChainName.lookup chain.1 = none) :
    (chains.foldl launch m).Linked ∧
      (∀ chain ∈ chains, (chains.foldl launch m).running chain.1 = some chain.2.chainId) ∧
      ∀ name, name ∉ chains.map Prod.fst →
        (chains.foldl launch m).running name = m.running name := by
  induction chains generalizing m with
  | nil => exact ⟨h, fun chain hc => (nomatch hc), fun _ _ => rfl⟩
  | cons chain chains ih =>
    obtain ⟨hnotin, hnodup⟩ := List.nodup_cons.1 hnodup
    have hfree' : ∀ c ∈ chains, (m.launch chain).indexerByChainName.lookup c.1 = none := by
      intro c hc
      have hne : c.1 ≠ chain.1 := fun he => hnotin (he ▸ List.mem_map_of_mem hc)
      exact (AList.lookup_insert_ne hne).trans (hfree c (List.mem_cons_of_mem _ hc))
    obtain ⟨hlinked, hnew, hold⟩ := ih (h.launch (hfree chain List.mem_cons_self)) hnodup hfree'
    refine ⟨hlinked, fun c hc => ?_, fun name hname => ?_⟩
    · rcases List.mem_cons.1 hc with rfl | hc
      · rw [List.foldl_cons, hold _ hnotin, running_launch h, if_pos rfl]
      · exact hnew c hc
    · rw [List.map_cons, List.mem_cons, not_or] at hname
      rw [List.foldl_cons, hold name hname.2, running_launch h, if_neg hname.1]

theorem running_eq_none_iff (h : m.Linked) {name : String} :
    m.running name = none ↔ m.indexerByChainName.lookup name = none := by
  unfold running
  cases hl : m.indexerByChainName.lookup name with
  | none => simp
  | some i =>
    obtain ⟨d, hd, -⟩ := h.registered name i hl
    simp [hd]

theorem launchNew_spec (h : m.Linked) : (m.launchNew o cl).Linked ∧ ∀ name,
    (m.launchNew o cl).running name =
      (m.running name).or ((ChainList.enabled cl name).map (·.chainId)) := by
  have hmem : ∀ chain : String × ChainConfig,
      chain ∈ (o.range [1] cl.pairs).filter (fun (name, c) =>
        (m.indexerByChainName.lookup name).isNone && !c.disable) ↔
        m.running chain.1 = none ∧ ChainList.enabled cl chain.1 = some chain.2 := by
    rintro ⟨name, c⟩
    rw [List.mem_filter, MapOrder.mem_range, Map.mem_pairs, running_eq_none_iff h,
      ChainList.enabled, Option.filter_eq_some_iff]
    simp only [Bool.and_eq_true, Option.isNone_iff_eq_none]
    exact and_left_comm
  have hnodup : (((o.range [1] cl.pairs).filter fun (name, c) =>
      (m.indexerByChainName.lookup name).isNone && !c.disable).map Prod.fst).Nodup := by
    have hkeys := ((o.range_perm [1] cl.pairs).map Prod.fst).nodup_iff.2 (Map.nodup_pairs cl)
    exact (List.filter_sublist.map Prod.fst).nodup hkeys
  obtain ⟨hlinked, hnew, hold⟩ := foldl_launch h hnodup fun chain hc =>
    (running_eq_none_iff h).1 ((hmem chain).1 hc).1
  refine ⟨hlinked, fun name => ?_⟩
  have hnot : (∀ c, m.running name = none → ChainList.enabled cl name ≠ some c) →
      (m.launchNew o cl).running name = m.running name := by
    intro hn
    refine hold name fun hname => ?_
    obtain ⟨chain, hc, rfl⟩ := List.mem_map.1 hname
    obtain ⟨hr, he⟩ := (hmem chain).1 hc
    exact hn _ hr he
  cases hr : m.running name with
  | some id => exact (hnot fun c hr' => by rw [hr] at hr'; cases hr').trans hr
  | none =>
    cases he : ChainList.enabled cl name with
    | some c => exact hnew (name, c) ((hmem (name, c)).2 ⟨hr, he⟩)
    | none => exact (hnot fun c _ he' => by rw [he] at he'; cases he').trans hr

/-! ### Updating -/

/-- An update keeps what is known of the indexers. -/
theorem update_spec (h : m.Linked) (chain : String × ChainConfig) :
    (m.update chain).Linked ∧ ∀ name, (m.update chain).running name = m.running name := by
  unfold update
  cases hl : m.indexerByChainName.lookup chain.1 with
  | none => exact ⟨h, fun _ => rfl⟩
  | some i =>
    dsimp only
    split_ifs with hdisable
    · exact ⟨h, fun _ => rfl⟩
    have hget : ∀ j, (m.indexers.modify i fun d => d.reloaded chain.2)[j]? =
        m.indexers[j]?.map fun d => if i = j then d.reloaded chain.2 else d := by
      intro j
      rw [List.getElem?_modify]
      by_cases hij : i = j
      · simp [hij]
      · simp [hij]
    have hkept : ∀ j (d : DefaultIndexer),
        (if i = j then d.reloaded chain.2 else d).chainName = d.chainName ∧
        (if i = j then d.reloaded chain.2 else d).chainId = d.chainId ∧
        (if i = j then d.reloaded chain.2 else d).shutdown = d.shutdown := by
      intro j d
      split_ifs
      · exact d.reloaded_kept chain.2
      · exact ⟨rfl, rfl, rfl⟩
    refine ⟨⟨fun name j hj => ?_, fun j d' hd' hflag => ?_⟩, fun name => ?_⟩
    · obtain ⟨d, hd, hname, hflag⟩ := h.registered name j hj
      refine ⟨_, (hget j).trans (congrArg (Option.map _) hd), ?_, ?_⟩
      · rw [(hkept j d).1, hname]
      · rw [(hkept j d).2.2, hflag]
    · obtain ⟨d, hd, rfl⟩ := Option.map_eq_some_iff.1 ((hget j).symm.trans hd')
      rw [(hkept j d).2.2] at hflag
      rw [(hkept j d).1]
      exact h.unflagged j d hd hflag
    · unfold running
      refine congrArg (Option.bind _) (funext fun j => ?_)
      show (m.indexers.modify i _)[j]?.map _ = _
      rw [hget j, Option.map_map]
      exact congrArg (fun f => Option.map f m.indexers[j]?) (funext fun d => (hkept j d).2.1)

theorem updateExisting_spec (h : m.Linked) : (m.updateExisting o cl).Linked ∧
    ∀ name, (m.updateExisting o cl).running name = m.running name := by
  unfold updateExisting
  generalize o.range [2] cl.pairs = chains
  induction chains generalizing m with
  | nil => exact ⟨h, fun _ => rfl⟩
  | cons chain chains ih =>
    obtain ⟨hlinked, hsame⟩ := update_spec h chain
    obtain ⟨hlinked', hsame'⟩ := ih hlinked
    exact ⟨hlinked', fun name => (hsame' name).trans (hsame name)⟩

theorem Linked.reload (h : m.Linked) : (m.reload o cl).Linked :=
  (updateExisting_spec (launchNew_spec h.shutdownUnused).1).1

/-- **A reload** runs an indexer for every enabled chain; one that was running under the
    name keeps its chain id. -/
theorem running_reload (h : m.Linked) (name : String) : (m.reload o cl).running name =
    (ChainList.enabled cl name).map fun c => (m.running name).getD c.chainId := by
  have hnew : ((m.shutdownUnused o cl).launchNew o cl).Linked ∧ _ :=
    launchNew_spec h.shutdownUnused
  rw [reload, (updateExisting_spec hnew.1).2 name, hnew.2 name, running_shutdownUnused]
  cases he : ChainList.enabled cl name with
  | none => rfl
  | some c => cases hr : m.running name <;> rfl

end DefaultIndexerManager

/-! ## Runs -/

/-- The configuration with which the running indexer of a chain was launched, after the
    lists that were loaded, the last one first. -/
def launchConfig (name : String) : List ChainList → Option ChainConfig
  | [] => none
  | cl :: cls => (cl.enabled name).map fun c => (launchConfig name cls).getD c

/-- A manager that has loaded accepted lists, the last one first. -/
inductive Reloads (isUrl : String → Bool) : List ChainList → DefaultIndexerManager → Prop
  | new : Reloads isUrl [] .new
  | reload {cls : List ChainList} {m : DefaultIndexerManager} {cl : ChainList} {o o' : MapOrder} :
      Reloads isUrl cls m → cl.validate isUrl o' = none → Reloads isUrl (cl :: cls) (m.reload o cl)

/-- No chain that stays enabled changes its chain id. -/
def KeepsChainIds (cls : List ChainList) : Prop :=
  cls.IsChain fun cl cl' => ∀ name c c', cl.enabled name = some c → cl'.enabled name = some c' →
    c.chainId = c'.chainId

variable {isUrl : String → Bool} {cls : List ChainList} {m : DefaultIndexerManager}

theorem Reloads.running (h : Reloads isUrl cls m) : m.Linked ∧
    ∀ name, m.running name = (launchConfig name cls).map (·.chainId) := by
  induction h with
  | new => exact ⟨DefaultIndexerManager.linked_new, fun _ => rfl⟩
  | @reload cls m cl o o' _ _ ih =>
    obtain ⟨hlinked, hrunning⟩ := ih
    refine ⟨hlinked.reload, fun name => ?_⟩
    rw [DefaultIndexerManager.running_reload hlinked, hrunning, launchConfig]
    cases cl.enabled name with
    | none => rfl
    | some c => cases launchConfig name cls <;> rfl

theorem launchConfig_chainId {cl : ChainList} (h : KeepsChainIds (cl :: cls)) {name : String}
    {c : ChainConfig} (hc : cl.enabled name = some c) :
    (launchConfig name (cl :: cls)).map (·.chainId) = some c.chainId := by
  induction cls generalizing cl c with
  | nil => rw [launchConfig, hc]; rfl
  | cons cl' cls ih =>
    obtain ⟨hids, hrest⟩ := List.isChain_cons_cons.1 h
    rw [launchConfig, hc]
    cases hl : launchConfig name (cl' :: cls) with
    | none => rfl
    | some c₀ =>
      have hsome : (cl'.enabled name).isSome := by
        rw [launchConfig] at hl
        obtain ⟨c', hc', -⟩ := Option.map_eq_some_iff.1 hl
        rw [hc']
        rfl
      obtain ⟨c', hc'⟩ := Option.isSome_iff_exists.1 hsome
      have hid := ih hrest hc'
      rw [hl] at hid
      exact hid.trans (congrArg some (hids name c c' hc hc').symm)

theorem DefaultIndexerManager.Linked.running_eq (h : m.Linked) {i : ℕ} {d : DefaultIndexer}
    (hd : m.Unflagged i d) : m.running d.chainName = some d.chainId := by
  rw [running, h.unflagged i d hd.1 hd.2, Option.bind_some, hd.1]
  rfl

theorem DefaultIndexerManager.Linked.exists_unflagged (h : m.Linked) {name id : String}
    (hr : m.running name = some id) :
    ∃ i d, m.Unflagged i d ∧ d.chainName = name ∧ d.chainId = id := by
  obtain ⟨i, hl, hi⟩ := Option.bind_eq_some_iff.1 hr
  obtain ⟨d, hd, rfl⟩ := Option.map_eq_some_iff.1 hi
  obtain ⟨d', hd', hname, hflag⟩ := h.registered name i hl
  obtain rfl : d = d' := Option.some.inj (hd.symm.trans hd')
  exact ⟨i, d, ⟨hd, hflag⟩, hname, rfl⟩

/-- There is one unflagged indexer under a name at most. -/
theorem DefaultIndexerManager.Linked.unflagged_unique (h : m.Linked) {i j : ℕ}
    {d d' : DefaultIndexer} (hd : m.Unflagged i d) (hd' : m.Unflagged j d')
    (hname : d.chainName = d'.chainName) : i = j := by
  have hi := h.unflagged i d hd.1 hd.2
  have hj := h.unflagged j d' hd'.1 hd'.2
  rw [hname] at hi
  exact Option.some.inj (hi.symm.trans hj)

/-- **Reloads**: after every reload, each enabled chain has exactly one indexer that is not
    flagged as shut down, with the chain id it was launched with, and no other indexer is
    unflagged; if no chain that stays enabled changes its chain id, the chain ids are those
    of the list, and distinct. -/
theorem reloads_running {cl : ChainList} (h : Reloads isUrl (cl :: cls) m) :
    (∀ name c, cl.enabled name = some c → ∃ i d, m.Unflagged i d ∧ d.chainName = name ∧
      (launchConfig name (cl :: cls)).map (·.chainId) = some d.chainId ∧
      ∀ j d', m.Unflagged j d' → d'.chainName = name → j = i) ∧
    (∀ i d, m.Unflagged i d → (cl.enabled d.chainName).isSome) ∧
    (KeepsChainIds (cl :: cls) →
      (∀ i d c, m.Unflagged i d → cl.enabled d.chainName = some c → d.chainId = c.chainId) ∧
      ∀ i j d d', m.Unflagged i d → m.Unflagged j d' → d.chainId = d'.chainId → i = j) := by
  obtain ⟨hlinked, hrunning⟩ := h.running
  obtain ⟨o, hvalid⟩ : ∃ o, cl.validate isUrl o = none := by
    cases h with
    | reload _ hv => exact ⟨_, hv⟩
  have henabled : ∀ i d, m.Unflagged i d → (cl.enabled d.chainName).isSome := by
    intro i d hd
    have hr := hrunning d.chainName
    rw [hlinked.running_eq hd, launchConfig] at hr
    cases he : cl.enabled d.chainName with
    | none => rw [he] at hr; cases hr
    | some c => rfl
  refine ⟨fun name c hc => ?_, henabled, fun hids => ?_⟩
  · have hlaunch : ∃ id, (launchConfig name (cl :: cls)).map (·.chainId) = some id := by
      rw [launchConfig, hc]
      exact ⟨_, rfl⟩
    obtain ⟨id, hid⟩ := hlaunch
    obtain ⟨i, d, hd, hname, rfl⟩ := hlinked.exists_unflagged ((hrunning name).trans hid)
    exact ⟨i, d, hd, hname, hid, fun j d' hd' hname' =>
      hlinked.unflagged_unique hd' hd (hname'.trans hname.symm)⟩
  · have hconfig : ∀ i d c, m.Unflagged i d → cl.enabled d.chainName = some c →
        d.chainId = c.chainId := by
      intro i d c hd hc
      have hr := hrunning d.chainName
      rw [hlinked.running_eq hd, launchConfig_chainId hids hc] at hr
      exact Option.some.inj hr
    refine ⟨hconfig, fun i j d d' hd hd' he => ?_⟩
    obtain ⟨c, hc⟩ := Option.isSome_iff_exists.1 (henabled i d hd)
    obtain ⟨c', hc'⟩ := Option.isSome_iff_exists.1 (henabled j d' hd')
    have hname := ChainList.validate_chainIds hvalid (Option.filter_eq_some_iff.1 hc).1
      (Option.filter_eq_some_iff.1 hc').1
      ((hconfig i d c hd hc).symm.trans (he.trans (hconfig j d' c' hd' hc')))
    exact hlinked.unflagged_unique hd hd' hname

/-- A list of enabled chains, given by their names and chain ids. -/
def sampleChainList (chains : List (String × String)) : ChainList :=
  chains.foldr (fun (name, chainId) cl =>
    AList.insert name ⟨chainId, ["http://localhost:8545"], false⟩ cl) ∅

/-- The manager after a list with one chain and then `chains`. -/
def reloadedTwice (chains : List (String × String)) : DefaultIndexerManager :=
  (DefaultIndexerManager.new.reload default (sampleChainList [("alpha", "one_1-1")])).reload default
    (sampleChainList chains)

theorem reloadedTwice_reloads (chains : List (String × String))
    (h : (sampleChainList chains).validate (fun _ => true) default = none) :
    Reloads (fun _ => true) [sampleChainList chains, sampleChainList [("alpha", "one_1-1")]]
      (reloadedTwice chains) := by
  have hone : (sampleChainList [("alpha", "one_1-1")]).validate (fun _ => true) default = none := by
    decide
  exact .reload (.reload .new hone) h

/-- A chain is added, and the first one keeps its chain id. -/
theorem added_chain_running : ∃ m,
    Reloads (fun _ => true) [sampleChainList [("alpha", "one_1-1"), ("beta", "two_2-1")],
      sampleChainList [("alpha", "one_1-1")]] m ∧
    (∃ i d, m.Unflagged i d ∧ d.chainName = "beta") ∧
    ∀ i j d d', m.Unflagged i d → m.Unflagged j d' → d.chainId = d'.chainId → i = j := by
  have hrun := reloadedTwice_reloads [("alpha", "one_1-1"), ("beta", "two_2-1")]
    (by decide)
  have hpairs : ∀ p ∈ Map.pairs (sampleChainList [("alpha", "one_1-1"), ("beta", "two_2-1")]),
      ∀ p' ∈ Map.pairs (sampleChainList [("alpha", "one_1-1")]), p.1 = p'.1 →
        p.2.chainId = p'.2.chainId := by decide
  have hids : KeepsChainIds [sampleChainList [("alpha", "one_1-1"), ("beta", "two_2-1")],
      sampleChainList [("alpha", "one_1-1")]] := by
    refine List.isChain_cons_cons.2 ⟨fun name c c' hc hc' => ?_, List.IsChain.singleton _⟩
    exact hpairs (name, c) (Map.mem_pairs.2 (Option.filter_eq_some_iff.1 hc).1) (name, c')
      (Map.mem_pairs.2 (Option.filter_eq_some_iff.1 hc').1) rfl
  obtain ⟨hone, -, hdistinct⟩ := reloads_running hrun
  obtain ⟨i, d, hd, hname, -⟩ := hone "beta" ⟨"two_2-1", ["http://localhost:8545"], false⟩ rfl
  exact ⟨_, hrun, ⟨i, d, hd, hname⟩, (hdistinct hids).2⟩

/-- A chain changes its chain id and keeps running with the old one, which another chain
    has now. -/
theorem changed_chain_running : ∃ m,
    Reloads (fun _ => true) [sampleChainList [("alpha", "two_2-1"), ("beta", "one_1-1")],
      sampleChainList [("alpha", "one_1-1")]] m ∧
    ∃ d d', m.Unflagged 0 d ∧ m.Unflagged 1 d' ∧ d.chainName = "alpha" ∧ d.chainId = "one_1-1" ∧
      d'.chainName = "beta" ∧ d'.chainId = "one_1-1" :=
  ⟨_, reloadedTwice_reloads [("alpha", "two_2-1"), ("beta", "one_1-1")]
    (by decide), _, _, ⟨rfl, rfl⟩, ⟨rfl, rfl⟩, rfl, rfl, rfl, rfl⟩

end RollappExplorer
