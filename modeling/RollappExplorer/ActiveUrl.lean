/-
  The active URL of an indexer among reloads of its configuration.

  A refresh reads the URLs of the configuration, asks each of them, and then writes its
  choice; a reload may come between any two of these steps.

  * `HealthStep`: the steps of an indexer and of the reloads, in any order;
  * `activeJsonRpcUrl_configured`: the active URL is one of the configuration if the reloads in
    the middle of a refresh keep the URLs it has read.
-/
import RollappExplorer.HealthCheck

namespace RollappExplorer

open Go Effect

/-! ## Interleavings -/

/-- A refresh that is under way, or none, and the world. -/
abbrev HealthState :=
  Option (Prog healthSig (Bool × Option ResponseBeGetChainInfo)) × HealthWorld

/-- A step of the indexer, which refreshes one time after the other, or a reload that satisfies
    `C` in the world it finds. -/
inductive HealthStep (S : SortFunc) (urlCheckInterval : ℤ)
    (C : ChainConfig → HealthWorld → Prop) : HealthState → HealthState → Prop
  | start {w : HealthWorld} : HealthStep S urlCheckInterval C (none, w)
      (some (refreshActiveJsonRpcUrl S urlCheckInterval), w)
  | call {p p' : Prog healthSig (Bool × Option ResponseBeGetChainInfo)} {w w' : HealthWorld}
      (h : Effect.Step healthHandler (p, w) (p', w')) :
      HealthStep S urlCheckInterval C (some p, w) (some p', w')
  | finish {r : Bool × Option ResponseBeGetChainInfo} {w : HealthWorld} :
      HealthStep S urlCheckInterval C (some (.ret r), w) (none, w)
  | reload {p : Option (Prog healthSig (Bool × Option ResponseBeGetChainInfo))} {w : HealthWorld}
      {chainConfig : ChainConfig} (hid : chainConfig.chainId = w.indexer.chainId)
      (hc : C chainConfig w) : HealthStep S urlCheckInterval C (p, w) (p, w.reload chainConfig)

/-- A new indexer of the chain, which may have a row with any URLs. -/
def HealthWorld.start (chainName : String) (chainConfig : ChainConfig)
    (beJsonRpcUrls : Option (List String)) : HealthWorld where
  indexer := newIndexer chainName chainConfig
  array := none
  sharesArray := true
  beJsonRpcUrls := beJsonRpcUrls
  responses := []
  chosen := none

/-- The active URL is empty or one of the configuration. -/
def HealthWorld.ActiveConfigured (w : HealthWorld) : Prop :=
  w.indexer.activeJsonRpcUrl = "" ∨ w.indexer.activeJsonRpcUrl ∈ w.urls

/-- The reload keeps the URLs that a refresh has read and not yet chosen from. -/
def KeepsArray (chainConfig : ChainConfig) (w : HealthWorld) : Prop :=
  ∀ array, w.array = some array → ∀ url ∈ array, url ∈ chainConfig.beJsonRpcUrls

/-! ## Reloads -/

variable {w : HealthWorld} {chainConfig : ChainConfig}

theorem mem_sortStrings {l : List String} {url : String} : url ∈ sortStrings l ↔ url ∈ l :=
  List.mem_insertionSort _

/-- Arrays that are equal when sorted have the same elements. -/
theorem mem_of_areSortedStringArraysEquals {arr1 arr2 : List String}
    (h : areSortedStringArraysEquals arr1 arr2 = true) {url : String} :
    url ∈ arr1 ↔ url ∈ arr2 := by
  unfold areSortedStringArraysEquals at h
  split_ifs at h with hlen hempty
  · have hlen' : arr2.length = 0 := (not_not.1 hlen).symm.trans hempty
    rw [List.length_eq_zero_iff.1 hempty, List.length_eq_zero_iff.1 hlen']
  · rw [← mem_sortStrings, of_decide_eq_true h, mem_sortStrings]

theorem HealthWorld.reload_indexer (hid : chainConfig.chainId = w.indexer.chainId) :
    (w.reload chainConfig).indexer = w.indexer.reloaded chainConfig := by
  rw [HealthWorld.reload, if_neg (not_not.2 hid)]

theorem HealthWorld.mem_urls_reload (hid : chainConfig.chainId = w.indexer.chainId) {url : String} :
    url ∈ (w.reload chainConfig).urls ↔ url ∈ chainConfig.beJsonRpcUrls := by
  rw [HealthWorld.urls, reload_indexer hid, DefaultIndexer.reloaded, DefaultIndexer.reload,
    if_neg (not_not.2 hid)]
  dsimp only
  split_ifs
  · exact mem_sortStrings
  · rfl

/-- A reload resets the active URL if the URLs change. -/
theorem HealthWorld.active_reload (hid : chainConfig.chainId = w.indexer.chainId) :
    (w.reload chainConfig).indexer.activeJsonRpcUrl =
      if areSortedStringArraysEquals w.urls chainConfig.beJsonRpcUrls
      then w.indexer.activeJsonRpcUrl else "" := by
  rw [reload_indexer hid, DefaultIndexer.reloaded, DefaultIndexer.reload, if_neg (not_not.2 hid)]
  by_cases hsame : areSortedStringArraysEquals w.urls chainConfig.beJsonRpcUrls = true
  · have hsame' := hsame
    rw [HealthWorld.urls] at hsame'
    simp only [hsame, hsame', if_true]
  · have hsame' := hsame
    rw [HealthWorld.urls] at hsame'
    simp only [hsame, hsame', DefaultIndexer.forceResetActiveJsonRpcUrl, Bool.false_eq_true,
      if_false]

theorem HealthWorld.activeConfigured_reload (hid : chainConfig.chainId = w.indexer.chainId)
    (h : w.ActiveConfigured) : (w.reload chainConfig).ActiveConfigured := by
  rw [ActiveConfigured, mem_urls_reload hid, active_reload hid]
  split_ifs with hsame
  · exact h.imp_right (mem_of_areSortedStringArraysEquals hsame).1
  · exact .inl rfl

/-- A reload may reorder the array of a refresh, and keeps its elements. -/
theorem HealthWorld.array_reload (chainConfig : ChainConfig) (w : HealthWorld) :
    (w.reload chainConfig).array = w.array ∨
      (w.reload chainConfig).array = w.array.map sortStrings := by
  unfold HealthWorld.reload
  split_ifs with hid hsorts
  · exact .inl rfl
  · exact .inr rfl
  · exact .inl rfl

/-! ## Stable assertions -/

/-- A reload of the chain's configuration that keeps the URLs of a refresh. -/
def KeepingReload (w w' : HealthWorld) : Prop :=
  ∃ chainConfig, chainConfig.chainId = w.indexer.chainId ∧ KeepsArray chainConfig w ∧
    w' = w.reload chainConfig

/-- No refresh has read URLs it has not yet chosen from. -/
def Settled (w : HealthWorld) : Prop := w.ActiveConfigured ∧ w.array = none

/-- A refresh has read the URLs, which are still configured; `asked` are among them. -/
def Asking (asked : List String) (w : HealthWorld) : Prop :=
  w.ActiveConfigured ∧ ∃ array, w.array = some array ∧ (∀ url ∈ array, url ∈ w.urls) ∧
    ∀ url ∈ asked, url ∈ array

theorem Asking.mono {asked asked' : List String} {w : HealthWorld} (h : Asking asked w)
    (hsub : asked' ⊆ asked) : Asking asked' w := by
  obtain ⟨hactive, array, harray, hurls, hasked⟩ := h
  exact ⟨hactive, array, harray, hurls, fun url hm => hasked url (hsub hm)⟩

theorem stable_settled : Stable KeepingReload Settled := by
  rintro w w' ⟨hactive, harray⟩ ⟨chainConfig, hid, -, rfl⟩
  refine ⟨HealthWorld.activeConfigured_reload hid hactive, ?_⟩
  rcases w.array_reload chainConfig with h | h
  · rw [h, harray]
  · rw [h, harray]
    rfl

theorem stable_asking (asked : List String) : Stable KeepingReload (Asking asked) := by
  rintro w w' ⟨hactive, array, harray, hurls, hasked⟩ ⟨chainConfig, hid, hkeeps, rfl⟩
  refine ⟨HealthWorld.activeConfigured_reload hid hactive, ?_⟩
  have hurls' : ∀ url ∈ array, url ∈ (w.reload chainConfig).urls := fun url hm =>
    (HealthWorld.mem_urls_reload hid).2 (hkeeps array harray url hm)
  rcases w.array_reload chainConfig with h | h
  · exact ⟨array, by rw [h, harray], hurls', hasked⟩
  · refine ⟨sortStrings array, by rw [h, harray]; rfl, fun url hm => ?_, fun url hm => ?_⟩
    · exact hurls' url (mem_sortStrings.1 hm)
    · exact mem_sortStrings.2 (hasked url hm)

/-! ## The refresh -/

theorem relyWp_collectResponses_asking (is : List ℕ) {before : List String} {w : HealthWorld}
    (h : Asking before w) :
    relyWp KeepingReload healthHandler (collectResponses is)
      (fun responses => Asking (before ++ responses.map (·.url))) w := by
  induction is generalizing before w with
  | nil =>
    refine relyWp_ret (stable_asking before) h fun w hw => ?_
    rwa [List.map_nil, List.append_nil]
  | cons i is ih =>
    refine relyWp_call (stable_asking before) h fun w hw url hurl => ?_
    obtain ⟨hactive, array, harray, hurls, hasked⟩ := hw
    have hread : Asking (before ++ [url]) w := by
      obtain ⟨array', harray', hget⟩ := hurl
      obtain rfl := Option.some.inj (harray.symm.trans harray')
      refine ⟨hactive, array, harray, hurls, fun u hu => ?_⟩
      rcases List.mem_append.1 hu with hu | hu
      · exact hasked u hu
      · rw [List.mem_singleton.1 hu]
        exact List.mem_of_getElem? hget
    refine relyWp_call (stable_asking _) hread fun w hw answer _ => ?_
    cases answer with
    | error err =>
      refine relyWp_mono (fun responses w hw => hw.mono fun u hu => ?_) (ih hw)
      simp only [List.mem_append] at hu ⊢
      exact hu.imp_left .inl
    | ok answer =>
      obtain ⟨res, duration⟩ := answer
      have hw' : Asking (before ++ [url]) (w.respond ⟨url, res, duration⟩) := hw
      refine relyWp_seq (ih hw') fun responses w hw => ?_
      refine relyWp_ret (stable_asking _) hw fun w hw => ?_
      rwa [List.append_assoc] at hw

theorem mem_of_topOfSorted {s : List ResponseByJsonRpcUrl} {best : ResponseByJsonRpcUrl}
    (h : topOfSorted s = some best) : best ∈ s := by
  cases s with
  | nil => cases h
  | cons top rest =>
    simp only [topOfSorted] at h
    split_ifs at h
    · cases hf : rest.filter fun res => contains res.url selfDomain with
      | nil =>
        simp only [hf, Option.some.injEq] at h
        exact h ▸ List.mem_cons_self
      | cons selfMaintained others =>
        simp only [hf] at h
        have hmem : selfMaintained ∈ rest :=
          List.mem_of_mem_filter (hf ▸ List.mem_cons_self)
        split_ifs at h
        · exact Option.some.inj h ▸ List.mem_cons_of_mem _ hmem
        · exact Option.some.inj h ▸ List.mem_cons_self
    · exact Option.some.inj h ▸ List.mem_cons_self

/-- The best response is one of the responses. -/
theorem getTop_mem {S : SortFunc} {s sorted : List ResponseByJsonRpcUrl}
    {best : ResponseByJsonRpcUrl} (h : getTop S s = (some best, sorted)) : best ∈ s :=
  (S.perm s).mem_iff.1 (mem_of_topOfSorted (getTop_some h).1)

theorem relyWp_useResponses_settled (S : SortFunc) {responses : List ResponseByJsonRpcUrl}
    {w : HealthWorld} (hw : Asking (responses.map (·.url)) w) :
    relyWp KeepingReload healthHandler (useResponses S responses) (fun _ => Settled) w := by
  unfold useResponses
  rcases htop : getTop S responses with ⟨_ | best, sorted⟩
  · refine relyWp_call (stable_asking _) hw fun w _ _ _ => ?_
    have hreset : Settled w.forceResetActiveJsonRpcUrl := ⟨.inl rfl, rfl⟩
    refine relyWp_call stable_settled hreset fun w hw answer _ => ?_
    cases answer with
    | error err => exact relyWp_ret stable_settled hw fun w hw => hw
    | ok updated => exact relyWp_ret stable_settled hw fun w hw => hw
  · have hbest := List.mem_map_of_mem (f := (·.url)) (getTop_mem htop)
    refine relyWp_call (stable_asking _) hw fun w hw now _ => ?_
    refine relyWp_call (stable_asking _) hw fun w hw _ _ => ?_
    have hupdate : Settled (w.updateActiveJsonRpcUrlAndLastCheck best.url now) := by
      obtain ⟨-, array, -, hurls, hasked⟩ := hw
      exact ⟨.inr (hurls _ (hasked _ hbest)), rfl⟩
    refine relyWp_call stable_settled hupdate fun w hw answer _ => ?_
    cases answer with
    | error err => exact relyWp_ret stable_settled hw fun w hw => hw
    | ok updated => exact relyWp_ret stable_settled hw fun w hw => hw

theorem relyWp_refreshActiveJsonRpcUrl_settled (S : SortFunc) (urlCheckInterval : ℤ)
    {w : HealthWorld} (hw : Settled w) :
    relyWp KeepingReload healthHandler (refreshActiveJsonRpcUrl S urlCheckInterval)
      (fun _ => Settled) w := by
  have hupdate : ∀ w, Settled w → relyWp KeepingReload healthHandler (updateActiveJsonRpcUrl S)
      (fun _ => Settled) w := by
    intro w hw
    refine relyWp_call stable_settled hw fun w hw count _ => ?_
    have hread : Asking [] w.getBeRpcUrls :=
      ⟨hw.1, _, rfl, fun url hm => hm, fun url hm => absurd hm List.not_mem_nil⟩
    refine relyWp_seq (relyWp_collectResponses_asking _ hread) fun responses w hw => ?_
    exact relyWp_useResponses_settled S hw
  refine relyWp_call stable_settled hw fun w hw active _ => ?_
  obtain ⟨activeJsonRpcUrl, lastUrlCheck⟩ := active
  dsimp only
  split_ifs
  · refine relyWp_call stable_settled hw fun w hw now _ => ?_
    split_ifs
    · exact relyWp_ret stable_settled hw fun w hw => hw
    · exact hupdate w hw
  · exact hupdate w hw

/-! ## Runs -/

/-- What holds in every state of a run: of a refresh under way, that it will settle. -/
def HealthInv : HealthState → Prop
  | (none, w) => Settled w
  | (some p, w) => relyWp KeepingReload healthHandler p (fun _ => Settled) w

variable {S : SortFunc} {urlCheckInterval : ℤ}

theorem HealthInv.step {x y : HealthState} (h : HealthInv x)
    (hs : HealthStep S urlCheckInterval KeepsArray x y) : HealthInv y := by
  cases hs with
  | start => exact relyWp_refreshActiveJsonRpcUrl_settled S urlCheckInterval h
  | @call p p' w w' hstep => exact relyWp_step (x := (p, w)) (y := (p', w')) h (.call hstep)
  | finish => exact h _ .refl
  | @reload p w chainConfig hid hkeeps =>
    have hr : KeepingReload w (w.reload chainConfig) := ⟨chainConfig, hid, hkeeps, rfl⟩
    cases p with
    | none => exact stable_settled _ _ h hr
    | some p => exact relyWp_others h (.single hr)

/-- **A removed URL does not stay active** if the reloads in the middle of a refresh keep the
    URLs it has read. -/
theorem activeJsonRpcUrl_configured {chainName : String} {chainConfig : ChainConfig}
    {beJsonRpcUrls : Option (List String)} {w : HealthWorld}
    (h : Relation.ReflTransGen (HealthStep S urlCheckInterval KeepsArray)
      (none, .start chainName chainConfig beJsonRpcUrls) (none, w)) :
    w.ActiveConfigured := by
  have hinv : ∀ x, Relation.ReflTransGen (HealthStep S urlCheckInterval KeepsArray)
      (none, .start chainName chainConfig beJsonRpcUrls) x → HealthInv x := by
    intro x hx
    induction hx with
    | refl => exact ⟨.inl rfl, rfl⟩
    | tail _ hs ih => exact ih.step hs
  exact (hinv _ h).1

/-! ## A removed URL -/

/-- The calls of a refresh are steps. -/
theorem HealthStep.run {C : ChainConfig → HealthWorld → Prop}
    {p p' : Prog healthSig (Bool × Option ResponseBeGetChainInfo)} {w w' : HealthWorld}
    (h : Run healthHandler (p, w) (p', w')) :
    Relation.ReflTransGen (HealthStep S urlCheckInterval C) (some p, w) (some p', w') :=
  Relation.ReflTransGen.lift
    (fun x : Prog healthSig (Bool × Option ResponseBeGetChainInfo) × HealthWorld => (some x.1, x.2))
    (fun _ _ => .call) _ _ h

/-- The configuration of a chain with these URLs. -/
def chainWithUrls (urls : List String) : ChainConfig := ⟨"rollapp_1-1", urls, false⟩

/-- Every URL answers. -/
def answerAlways (_ : String) : Except Error (ResponseBeGetChainInfo × ℤ) :=
  .ok (⟨∅, "rollapp_1-1", "evm", ∅, 100, 1720000000⟩, 5)

/-- The response of the only URL of the chain. -/
def onlyResponse : ResponseByJsonRpcUrl :=
  ⟨"https://be.a", ⟨∅, "rollapp_1-1", "evm", ∅, 100, 1720000000⟩, 5⟩

def onlyUrl : HealthWorld := .start "rollapp" (chainWithUrls ["https://be.a"]) none

/-- A refresh has asked the only URL. -/
def askedOnlyUrl : HealthWorld := onlyUrl.getBeRpcUrls.respondAll [onlyResponse]

/-- The refresh is finished after a reload. -/
def refreshedAfterReload (urls : List String) : HealthWorld :=
  ((askedOnlyUrl.reload (chainWithUrls urls)).updateActiveJsonRpcUrlAndLastCheck "https://be.a"
    1720000000).updateBeJsonRpcUrls ["https://be.a"]

theorem run_reloadInRefresh {C : ChainConfig → HealthWorld → Prop} {urls : List String}
    (hc : C (chainWithUrls urls) askedOnlyUrl) :
    Relation.ReflTransGen (HealthStep insertionSortFunc 60 C) (none, onlyUrl)
      (none, refreshedAfterReload urls) := by
  have hask : Run healthHandler (refreshActiveJsonRpcUrl insertionSortFunc 60, onlyUrl)
      (useResponses insertionSortFunc [onlyResponse], askedOnlyUrl) :=
    run_refreshActiveJsonRpcUrl insertionSortFunc 60 answerAlways rfl
  have hreload : HealthStep insertionSortFunc 60 C
      (some (useResponses insertionSortFunc [onlyResponse]), askedOnlyUrl)
      (some (useResponses insertionSortFunc [onlyResponse]),
        askedOnlyUrl.reload (chainWithUrls urls)) := .reload rfl hc
  have huse : Run healthHandler
      (useResponses insertionSortFunc [onlyResponse], askedOnlyUrl.reload (chainWithUrls urls))
      (.ret (true, some onlyResponse.res), refreshedAfterReload urls) :=
    run_useResponses insertionSortFunc 1720000000 rfl _
  exact .head .start (((HealthStep.run hask).tail hreload).trans
    ((HealthStep.run huse).tail .finish))

/-- A reload that keeps the URL leaves it configured. -/
theorem keptUrl_configured :
    (refreshedAfterReload ["https://be.b", "https://be.a"]).ActiveConfigured := by
  have hkeeps : KeepsArray (chainWithUrls ["https://be.b", "https://be.a"]) askedOnlyUrl := by
    intro array harray url hurl
    obtain rfl := Option.some.inj harray
    rw [List.mem_singleton.1 hurl]
    exact List.mem_cons_of_mem _ List.mem_cons_self
  exact activeJsonRpcUrl_configured (run_reloadInRefresh hkeeps)

/-- A reload that removes the URL in the middle of a refresh leaves it active. -/
theorem removedUrl_notConfigured :
    Relation.ReflTransGen (HealthStep insertionSortFunc 60 fun _ _ => True) (none, onlyUrl)
      (none, refreshedAfterReload ["https://be.b"]) ∧
    ¬ (refreshedAfterReload ["https://be.b"]).ActiveConfigured := by
  refine ⟨run_reloadInRefresh trivial, ?_⟩
  rintro (h | h)
  · exact absurd h (by decide)
  · exact absurd h (by decide)

end RollappExplorer
