/-
  The health check of the JSON-RPC URLs (`indexer_health_check.go`), and the URL the web app
  connects to (`web-app/src/utils/store.ts`).

  The indexer and the reloads of its configuration share the indexer's fields, whose
  accesses are atomic; the array of URLs is also read without the lock.

  * `getTop`: the best response, and the order in which the responses are left;
  * `refreshActiveJsonRpcUrl`: the program; `HealthWorld.reload`: the step of the others;
  * `stored_bestFirst_iff`: the stored URLs begin with the one made active unless a
    self-maintained URL is preferred to the top of the order.
-/
import RollappExplorer.Effect.Rely
import RollappExplorer.Manager
import RollappExplorer.Response

namespace RollappExplorer

open Go Effect

/-! ## The best response -/

/-- `responseByJsonRpcUrl`; the duration in nanoseconds. -/
structure ResponseByJsonRpcUrl where
  url : String
  res : ResponseBeGetChainInfo
  duration : ℤ

/-- The comparison of `responseByJsonRpcUrlSlice.Sort`. -/
def ResponseByJsonRpcUrl.cmp (l r : ResponseByJsonRpcUrl) : ℤ :=
  -- first priority: block height
  if l.res.latestBlock < r.res.latestBlock then 1
  else if l.res.latestBlock > r.res.latestBlock then -1
  -- second priority: response time
  else if l.duration < r.duration then -1
  else if l.duration > r.duration then 1
  else 0

/-- `slices.SortFunc` for the comparison: it sorts, but need not be stable. -/
structure SortFunc where
  sort : List ResponseByJsonRpcUrl → List ResponseByJsonRpcUrl
  perm : ∀ l, (sort l).Perm l
  sorted : ∀ l, (sort l).Pairwise fun l r => l.cmp r ≤ 0

def maxSelfMaintainedBlocksFallBehind : ℤ := 10
def maxSelfMaintainedEpochsFallBehind : ℤ := 50

def selfDomain : String := "1ocalhost.online"

/-- `GetTop` after the sorting. -/
def topOfSorted : List ResponseByJsonRpcUrl → Option ResponseByJsonRpcUrl
  | [] => none
  | theBest :: rest =>
    if 1 < (theBest :: rest).length ∧ ¬ contains theBest.url selfDomain then
      -- when top is not self-maintained, check if there is any self-maintained URL
      match rest.filter fun res => contains res.url selfDomain with
      | [] => theBest
      | theBestSelfMaintained :: _ =>
        let notFarHeight := theBest.res.latestBlock - theBestSelfMaintained.res.latestBlock ≤
          maxSelfMaintainedBlocksFallBehind
        let notFarEpoch := theBest.res.latestBlockTimeEpochUTC -
            theBestSelfMaintained.res.latestBlockTimeEpochUTC ≤
          maxSelfMaintainedEpochsFallBehind
        if notFarHeight ∧ notFarEpoch then theBestSelfMaintained else theBest
    else theBest

/-- `GetTop`: the best response, and the responses as the sorting leaves them. -/
def getTop (S : SortFunc) (s : List ResponseByJsonRpcUrl) :
    Option ResponseByJsonRpcUrl × List ResponseByJsonRpcUrl :=
  if s.length = 0 then (none, s) else (topOfSorted (S.sort s), S.sort s)

/-! ## Calls -/

inductive HealthCall where
  /-- `time.Now().UTC().Unix()` -/
  | now
  | getActiveJsonRpcUrlAndLastCheck
  /-- `getBeRpcUrlsRL`: the slice, of which only the length is copied -/
  | getBeRpcUrls
  /-- an element of the slice -/
  | beRpcUrl (i : ℕ)
  /-- `BeGetChainInfo` on the URL, with the time it has taken -/
  | beGetChainInfo (url : String)
  | forceResetActiveJsonRpcUrl
  | updateActiveJsonRpcUrlAndLastCheck (activeJsonRpcUrl : String) (lastUrlCheck : ℤ)
  | updateBeJsonRpcUrlsIfExists (urls : List String)

abbrev HealthCall.Ans : HealthCall → Type
  | .now => ℤ
  | .getActiveJsonRpcUrlAndLastCheck => String × Option ℤ
  | .getBeRpcUrls => ℕ
  | .beRpcUrl _ => String
  | .beGetChainInfo _ => Except Error (ResponseBeGetChainInfo × ℤ)
  | .forceResetActiveJsonRpcUrl | .updateActiveJsonRpcUrlAndLastCheck _ _ => Unit
  | .updateBeJsonRpcUrlsIfExists _ => Except Error Bool

abbrev healthSig : Sig := ⟨HealthCall, HealthCall.Ans⟩

abbrev performHealth (c : HealthCall) : Prog healthSig c.Ans := Prog.perform (S := healthSig) c

/-! ## The program -/

/-- The loop over the URLs with the indexes `is`. -/
def collectResponses : List ℕ → Prog healthSig (List ResponseByJsonRpcUrl)
  | [] => return []
  | i :: is => do
    let url ← performHealth (.beRpcUrl i)
    match ← performHealth (.beGetChainInfo url) with
    | .error _ => collectResponses is
    | .ok (resBeGetChainInfo, duration) =>
      let responses ← collectResponses is
      return ⟨url, resBeGetChainInfo, duration⟩ :: responses

/-- The part of `refreshActiveJsonRpcUrl` after the loop. -/
def useResponses (S : SortFunc) (responsesByJsonRpcUrl : List ResponseByJsonRpcUrl) :
    Prog healthSig (Bool × Option ResponseBeGetChainInfo) :=
  match getTop S responsesByJsonRpcUrl with
  | (none, _) => do
    performHealth .forceResetActiveJsonRpcUrl
    let _ ← performHealth (.updateBeJsonRpcUrlsIfExists [])
    return (false, none)
  | (some theBestResponse, responsesByJsonRpcUrl) => do
    let now ← performHealth .now
    performHealth (.updateActiveJsonRpcUrlAndLastCheck theBestResponse.url now)
    match ← performHealth (.updateBeJsonRpcUrlsIfExists (responsesByJsonRpcUrl.map (·.url))) with
    | .error _ => return (false, none)
    | .ok _ => return (true, some theBestResponse.res)

/-- The part of `refreshActiveJsonRpcUrl` that updates the active URL. -/
def updateActiveJsonRpcUrl (S : SortFunc) :
    Prog healthSig (Bool × Option ResponseBeGetChainInfo) := do
  let count ← performHealth .getBeRpcUrls
  let responsesByJsonRpcUrl ← collectResponses (List.range count)
  useResponses S responsesByJsonRpcUrl

/-- `refreshActiveJsonRpcUrl`; no time of the last check is the zero time. -/
def refreshActiveJsonRpcUrl (S : SortFunc) (urlCheckInterval : ℤ) :
    Prog healthSig (Bool × Option ResponseBeGetChainInfo) := do
  let (activeJsonRpcUrl, lastUrlCheck) ← performHealth .getActiveJsonRpcUrlAndLastCheck
  if len activeJsonRpcUrl ≠ 0 then
    let now ← performHealth .now
    if lastUrlCheck.any fun t => now - t ≤ urlCheckInterval then
      -- no need to refresh
      return (false, none)
    else updateActiveJsonRpcUrl S
  else updateActiveJsonRpcUrl S

/-! ## The world -/

/-- The indexer; the array a refresh reads its URLs from, until it writes its choice, and
    whether the configuration still has the same array; the URLs stored in `chain_info`, if
    the chain has a row; and what the last refresh has learned and chosen. -/
structure HealthWorld where
  indexer : DefaultIndexer
  array : Option (List String)
  sharesArray : Bool
  beJsonRpcUrls : Option (List String)
  responses : List ResponseByJsonRpcUrl
  chosen : Option String

namespace HealthWorld

/-- The URLs of the current configuration. -/
def urls (w : HealthWorld) : List String := w.indexer.chainConfig.beJsonRpcUrls

/-- What a refresh begins to read. -/
def getBeRpcUrls (w : HealthWorld) : HealthWorld :=
  { w with array := some w.urls, sharesArray := true, responses := [], chosen := none }

def respond (w : HealthWorld) (response : ResponseByJsonRpcUrl) : HealthWorld :=
  { w with responses := w.responses ++ [response] }

def forceResetActiveJsonRpcUrl (w : HealthWorld) : HealthWorld :=
  { w with indexer := w.indexer.forceResetActiveJsonRpcUrl, array := none }

def updateActiveJsonRpcUrlAndLastCheck (activeJsonRpcUrl : String) (lastUrlCheck : ℤ)
    (w : HealthWorld) : HealthWorld :=
  { w with
    indexer := { w.indexer with
      activeJsonRpcUrl := activeJsonRpcUrl, lastUrlCheck := some lastUrlCheck }
    array := none
    chosen := some activeJsonRpcUrl }

/-- `UPDATE chain_info SET be_json_rpc_urls = $1 WHERE chain_id = $2` -/
def updateBeJsonRpcUrls (urls : List String) (w : HealthWorld) : HealthWorld :=
  { w with beJsonRpcUrls := w.beJsonRpcUrls.map fun _ => urls }

/-- `Reload`; the comparison of the URLs sorts the array of the old ones in place. -/
def reload (chainConfig : ChainConfig) (w : HealthWorld) : HealthWorld :=
  if chainConfig.chainId ≠ w.indexer.chainId then w
  else
    { w with
      indexer := w.indexer.reloaded chainConfig
      array :=
        if w.sharesArray ∧ w.urls.length = chainConfig.beJsonRpcUrls.length then
          w.array.map sortStrings
        else w.array
      sharesArray := false }

end HealthWorld

/-- Every URL may answer or fail, at any time; the database may fail. -/
def healthHandler : Handler healthSig HealthWorld where
  allows
    | .getActiveJsonRpcUrlAndLastCheck, a, w =>
      a = (w.indexer.activeJsonRpcUrl, w.indexer.lastUrlCheck)
    | .getBeRpcUrls, a, w => a = w.urls.length
    | .beRpcUrl i, a, w => ∃ array, w.array = some array ∧ array[i]? = some a
    | .updateBeJsonRpcUrlsIfExists _, .ok updated, w => updated = w.beJsonRpcUrls.isSome
    | _, _, _ => True
  effect
    | .getBeRpcUrls, _, w => w.getBeRpcUrls
    | .beGetChainInfo url, .ok (res, duration), w => w.respond ⟨url, res, duration⟩
    | .forceResetActiveJsonRpcUrl, _, w => w.forceResetActiveJsonRpcUrl
    | .updateActiveJsonRpcUrlAndLastCheck url t, _, w => w.updateActiveJsonRpcUrlAndLastCheck url t
    | .updateBeJsonRpcUrlsIfExists urls, .ok _, w => w.updateBeJsonRpcUrls urls
    | _, _, w => w

/-- A step of the others: a reload. -/
def ReloadStep (w w' : HealthWorld) : Prop := ∃ chainConfig, w' = w.reload chainConfig

/-! ## The web app -/

/-- What the web app reads of a rollapp. -/
structure RollappInfo where
  beJsonRpcUrls : List String

/-- A client of the URL. -/
structure RpcService where
  url : String

def getRpcServiceFromSelectedRollappInfo : Option RollappInfo → Option RpcService
  | some selectedRollappInfo => selectedRollappInfo.beJsonRpcUrls.head?.map RpcService.mk
  | none => none

/-! ## The choice -/

/-- In this order of the responses, a self-maintained URL is preferred to the top one. -/
def selfMaintainedPreferred : List ResponseByJsonRpcUrl → Bool
  | [] => false
  | top :: rest => !contains top.url selfDomain &&
    (rest.filter fun res => contains res.url selfDomain).head?.any fun selfMaintained =>
      top.res.latestBlock - selfMaintained.res.latestBlock ≤ maxSelfMaintainedBlocksFallBehind &&
      top.res.latestBlockTimeEpochUTC - selfMaintained.res.latestBlockTimeEpochUTC ≤
        maxSelfMaintainedEpochsFallBehind

/-- The best response is the first one unless a self-maintained URL is preferred to it. -/
theorem head_eq_topOfSorted_iff {s : List ResponseByJsonRpcUrl} {best : ResponseByJsonRpcUrl}
    (h : topOfSorted s = some best) :
    (s.map (·.url)).head? = some best.url ↔ selfMaintainedPreferred s = false := by
  cases s with
  | nil => cases h
  | cons top rest =>
    have hhead : ((top :: rest).map (·.url)).head? = some best.url ↔ top.url = best.url := by simp
    rw [hhead]
    simp only [topOfSorted] at h
    split_ifs at h with hself
    · cases hf : rest.filter fun res => contains res.url selfDomain with
      | nil =>
        simp only [hf, Option.some.injEq] at h
        simp [selfMaintainedPreferred, hf, h]
      | cons selfMaintained others =>
        simp only [hf] at h
        have hmem : selfMaintained ∈ rest.filter fun res => contains res.url selfDomain := by
          rw [hf]; exact List.mem_cons_self
        have hcontains := (List.mem_filter.1 hmem).2
        have htop : contains top.url selfDomain = false := Bool.eq_false_iff.2 hself.2
        have hpreferred : selfMaintainedPreferred (top :: rest) =
            (decide (top.res.latestBlock - selfMaintained.res.latestBlock ≤
              maxSelfMaintainedBlocksFallBehind) &&
            decide (top.res.latestBlockTimeEpochUTC - selfMaintained.res.latestBlockTimeEpochUTC ≤
              maxSelfMaintainedEpochsFallBehind)) := by
          rw [selfMaintainedPreferred, hf, htop]
          rfl
        rw [hpreferred, ← Bool.decide_and]
        split_ifs at h with hnear
        · obtain rfl := Option.some.inj h
          rw [decide_eq_true hnear]
          exact iff_of_false (fun he => hself.2 (he ▸ hcontains)) (by simp)
        · obtain rfl := Option.some.inj h
          exact iff_of_true rfl (decide_eq_false hnear)
    · obtain rfl := Option.some.inj h
      cases rest with
      | nil => simp [selfMaintainedPreferred]
      | cons =>
        have htop : contains top.url selfDomain = true := by simpa using hself
        simp [selfMaintainedPreferred, htop]

theorem getTop_some {S : SortFunc} {s sorted : List ResponseByJsonRpcUrl}
    {best : ResponseByJsonRpcUrl} (h : getTop S s = (some best, sorted)) :
    topOfSorted (S.sort s) = some best ∧ S.sort s = sorted := by
  unfold getTop at h
  split_ifs at h
  · cases h
  · exact ⟨congrArg Prod.fst h, congrArg Prod.snd h⟩

/-! ## What a refresh stores -/

/-- A reload does not change what a refresh has learned, chosen and stored. -/
theorem HealthWorld.reload_kept (chainConfig : ChainConfig) (w : HealthWorld) :
    (w.reload chainConfig).responses = w.responses ∧ (w.reload chainConfig).chosen = w.chosen ∧
      (w.reload chainConfig).beJsonRpcUrls = w.beJsonRpcUrls := by
  unfold HealthWorld.reload
  split_ifs <;> exact ⟨rfl, rfl, rfl⟩

/-- The chain has a row, and a refresh has got the responses so far. -/
def Learned (responses : List ResponseByJsonRpcUrl) (w : HealthWorld) : Prop :=
  w.responses = responses ∧ w.beJsonRpcUrls.isSome = true

/-- A refresh has made `best` active, and the chain has a row. -/
def Chosen (responses : List ResponseByJsonRpcUrl) (best : String) (w : HealthWorld) : Prop :=
  Learned responses w ∧ w.chosen = some best

theorem stable_learned (responses : List ResponseByJsonRpcUrl) :
    Stable ReloadStep (Learned responses) := by
  rintro w w' ⟨hr, hrow⟩ ⟨chainConfig, rfl⟩
  obtain ⟨hr', -, hrow'⟩ := w.reload_kept chainConfig
  exact ⟨hr'.trans hr, by rwa [hrow']⟩

theorem stable_chosen (responses : List ResponseByJsonRpcUrl) (best : String) :
    Stable ReloadStep (Chosen responses best) := by
  rintro w w' ⟨hl, hc⟩ ⟨chainConfig, rfl⟩
  obtain ⟨-, hc', -⟩ := w.reload_kept chainConfig
  exact ⟨stable_learned _ _ _ hl ⟨chainConfig, rfl⟩, hc'.trans hc⟩

/-- A refresh has stored the responses in their order, with `best` active. -/
def StoredInOrder (S : SortFunc) (w : HealthWorld) : Prop :=
  ∃ best, topOfSorted (S.sort w.responses) = some best ∧ w.chosen = some best.url ∧
    w.beJsonRpcUrls = some ((S.sort w.responses).map (·.url))

theorem stable_storedInOrder (S : SortFunc) : Stable ReloadStep (StoredInOrder S) := by
  rintro w w' hstored ⟨chainConfig, rfl⟩
  obtain ⟨hr, hc, hu⟩ := w.reload_kept chainConfig
  rw [StoredInOrder, hr, hc, hu]
  exact hstored

theorem relyWp_collectResponses (is : List ℕ) {before : List ResponseByJsonRpcUrl}
    {w : HealthWorld} (h : Learned before w) :
    relyWp ReloadStep healthHandler (collectResponses is)
      (fun responses => Learned (before ++ responses)) w := by
  induction is generalizing before w with
  | nil =>
    refine relyWp_ret (stable_learned before) h fun w hw => ?_
    rwa [List.append_nil]
  | cons i is ih =>
    refine relyWp_call (stable_learned before) h fun w hw url _ => ?_
    refine relyWp_call (stable_learned before) hw fun w hw answer _ => ?_
    cases answer with
    | error err => exact ih hw
    | ok answer =>
      obtain ⟨res, duration⟩ := answer
      have hw' : Learned (before ++ [⟨url, res, duration⟩]) (w.respond ⟨url, res, duration⟩) :=
        ⟨by rw [HealthWorld.respond, hw.1], hw.2⟩
      refine relyWp_seq (ih hw') fun responses w hw => ?_
      refine relyWp_ret (stable_learned _) hw fun w hw => ?_
      rwa [List.append_assoc] at hw

theorem relyWp_useResponses (S : SortFunc) {responses : List ResponseByJsonRpcUrl}
    {w : HealthWorld} (hw : Learned responses w) :
    relyWp ReloadStep healthHandler (useResponses S responses)
      (fun r w => r.1 = true → StoredInOrder S w) w := by
  unfold useResponses
  rcases htop : getTop S responses with ⟨_ | best, sorted⟩
  · refine relyWp_call stable_true trivial fun w _ _ _ => ?_
    refine relyWp_call stable_true trivial fun w _ _ _ => ?_
    exact relyWp_ret stable_true trivial fun w _ h => nomatch h
  · obtain ⟨hbest, rfl⟩ := getTop_some htop
    refine relyWp_call (stable_learned responses) hw fun w hw now _ => ?_
    refine relyWp_call (stable_learned responses) hw fun w hw _ _ => ?_
    have hchosen : Chosen responses best.url
      (w.updateActiveJsonRpcUrlAndLastCheck best.url now) := ⟨hw, rfl⟩
    refine relyWp_call (stable_chosen responses best.url) hchosen fun w hw answer _ => ?_
    cases answer with
    | error err => exact relyWp_ret stable_true trivial fun w _ h => nomatch h
    | ok updated =>
      have hstored : StoredInOrder S
          (w.updateBeJsonRpcUrls ((S.sort responses).map (·.url))) := by
        obtain ⟨⟨hr, hrow⟩, hc⟩ := hw
        obtain ⟨old, hold⟩ := Option.isSome_iff_exists.1 hrow
        refine ⟨best, ?_, hc, ?_⟩
        · rw [← hbest, ← hr]
          rfl
        · rw [HealthWorld.updateBeJsonRpcUrls, hold, ← hr]
          rfl
      exact relyWp_ret (stable_storedInOrder S) hstored fun w hw _ => hw

theorem relyWp_updateActiveJsonRpcUrl (S : SortFunc) {w : HealthWorld}
    (hrow : w.beJsonRpcUrls.isSome = true) :
    relyWp ReloadStep healthHandler (updateActiveJsonRpcUrl S)
      (fun r w => r.1 = true → StoredInOrder S w) w := by
  have hlearned : Learned w.responses w := ⟨rfl, hrow⟩
  refine relyWp_call (stable_learned _) hlearned fun w hw count _ => ?_
  have hw' : Learned [] w.getBeRpcUrls := ⟨rfl, hw.2⟩
  refine relyWp_seq (relyWp_collectResponses _ hw') fun responses w hw => ?_
  exact relyWp_useResponses S hw

theorem relyWp_refreshActiveJsonRpcUrl (S : SortFunc) (urlCheckInterval : ℤ) {w : HealthWorld}
    (hrow : w.beJsonRpcUrls.isSome = true) :
    relyWp ReloadStep healthHandler (refreshActiveJsonRpcUrl S urlCheckInterval)
      (fun r w => r.1 = true → StoredInOrder S w) w := by
  have hlearned : Learned w.responses w := ⟨rfl, hrow⟩
  refine relyWp_call (stable_learned _) hlearned fun w hw active _ => ?_
  obtain ⟨activeJsonRpcUrl, lastUrlCheck⟩ := active
  dsimp only
  split_ifs
  · refine relyWp_call (stable_learned _) hw fun w hw now _ => ?_
    split_ifs
    · exact relyWp_ret stable_true trivial fun w _ h => nomatch h
    · exact relyWp_updateActiveJsonRpcUrl S hw.2
  · exact relyWp_updateActiveJsonRpcUrl S hw.2

/-- The URLs stored are those that responded, the one made active first, and the web app
    connects to it. -/
def BestFirst (w : HealthWorld) : Prop :=
  ∃ urls best, w.beJsonRpcUrls = some urls ∧ w.chosen = some best ∧
    urls.Perm (w.responses.map (·.url)) ∧ urls.head? = some best ∧
    getRpcServiceFromSelectedRollappInfo (some ⟨urls⟩) = some ⟨best⟩

/-- **The web app uses the URL the indexer chose** unless a self-maintained URL was preferred to
    the top of the order. -/
theorem stored_bestFirst_iff (S : SortFunc) (urlCheckInterval : ℤ) {w w' : HealthWorld}
    (hrow : w.beJsonRpcUrls.isSome = true) {info : Option ResponseBeGetChainInfo}
    (hr : SharedRun ReloadStep healthHandler (refreshActiveJsonRpcUrl S urlCheckInterval, w)
      (.ret (true, info), w')) :
    BestFirst w' ↔ selfMaintainedPreferred (S.sort w'.responses) = false := by
  obtain ⟨best, htop, hchosen, hurls⟩ :=
    relyWp_result (relyWp_refreshActiveJsonRpcUrl S urlCheckInterval hrow) hr rfl
  rw [← head_eq_topOfSorted_iff htop]
  constructor
  · rintro ⟨urls, best', hurls', hchosen', -, hhead, -⟩
    obtain rfl := Option.some.inj (hchosen.symm.trans hchosen')
    obtain rfl := Option.some.inj (hurls.symm.trans hurls')
    exact hhead
  · intro hhead
    refine ⟨_, _, hurls, hchosen, (S.perm _).map _, hhead, ?_⟩
    rw [getRpcServiceFromSelectedRollappInfo, hhead]
    rfl

/-! ## Runs in which the URLs give certain answers -/

/-- The responses of the URLs that answer. -/
def responsesOf (answer : String → Except Error (ResponseBeGetChainInfo × ℤ))
    (urls : List String) : List ResponseByJsonRpcUrl :=
  urls.flatMap fun url => match answer url with
    | .error _ => []
    | .ok (res, duration) => [⟨url, res, duration⟩]

def HealthWorld.respondAll (responses : List ResponseByJsonRpcUrl) (w : HealthWorld) :
    HealthWorld := { w with responses := w.responses ++ responses }

theorem run_collectResponses (answer : String → Except Error (ResponseBeGetChainInfo × ℤ))
    {is : List ℕ} {w : HealthWorld} {array : List String} (ha : w.array = some array)
    (hi : ∀ i ∈ is, i < array.length) :
    Run healthHandler (collectResponses is, w)
      (.ret (responsesOf answer (is.map fun i => array.getD i "")),
        w.respondAll (responsesOf answer (is.map fun i => array.getD i ""))) := by
  induction is generalizing w with
  | nil =>
    have hw : w.respondAll [] = w := by simp [HealthWorld.respondAll]
    rw [List.map_nil, responsesOf, List.flatMap_nil, hw]
    exact .refl
  | cons i is ih =>
    obtain ⟨hlt, hi⟩ := List.forall_mem_cons.1 hi
    have hurl : healthHandler.allows (.beRpcUrl i) (array.getD i "") w :=
      ⟨array, ha, by simp [hlt]⟩
    refine (Run.perform hurl).seq ?_
    rw [List.map_cons, responsesOf, List.flatMap_cons, ← responsesOf]
    cases hanswer : answer (array.getD i "") with
    | error err =>
      have hallowed : healthHandler.allows (.beGetChainInfo (array.getD i "")) (.error err) w :=
        trivial
      exact (Run.perform hallowed).seq (ih ha hi)
    | ok answered =>
      obtain ⟨res, duration⟩ := answered
      have hallowed : healthHandler.allows (.beGetChainInfo (array.getD i ""))
        (.ok (res, duration)) w := trivial
      refine (Run.perform hallowed).seq ((ih (w := w.respond ⟨_, res, duration⟩) ha hi).seq ?_)
      have hw : (w.respond ⟨array.getD i "", res, duration⟩).respondAll
          (responsesOf answer (is.map fun i => array.getD i "")) =
          w.respondAll ([⟨array.getD i "", res, duration⟩] ++
            responsesOf answer (is.map fun i => array.getD i "")) := by
        simp [HealthWorld.respond, HealthWorld.respondAll]
      rw [hw]
      exact .refl

/-- The run of a refresh with no active URL up to the end of its loop. -/
theorem run_refreshActiveJsonRpcUrl (S : SortFunc) (urlCheckInterval : ℤ)
    (answer : String → Except Error (ResponseBeGetChainInfo × ℤ)) {w : HealthWorld}
    (hinactive : w.indexer.activeJsonRpcUrl = "") :
    Run healthHandler (refreshActiveJsonRpcUrl S urlCheckInterval, w)
      (useResponses S (responsesOf answer w.urls),
        w.getBeRpcUrls.respondAll (responsesOf answer w.urls)) := by
  have hactive : healthHandler.allows .getActiveJsonRpcUrlAndLastCheck
      ("", w.indexer.lastUrlCheck) w := by rw [← hinactive]; rfl
  have hcount : healthHandler.allows .getBeRpcUrls w.urls.length w := rfl
  refine (Run.perform hactive).seq ((Run.perform hcount).seq ?_)
  have hindexes : (List.range w.urls.length).map (fun i => w.urls.getD i "") = w.urls := by
    refine List.ext_getElem (by simp) fun i h _ => ?_
    simp_all
  have hcollect := run_collectResponses (w := w.getBeRpcUrls) answer rfl
    fun i (hi : i ∈ List.range w.urls.length) => List.mem_range.1 hi
  rw [hindexes] at hcollect
  exact hcollect.seq .refl

/-- The rest of the run, if the best response is known. -/
theorem run_useResponses (S : SortFunc) (now : ℤ) {responses : List ResponseByJsonRpcUrl}
    {best : ResponseByJsonRpcUrl} (hbest : getTop S responses = (some best, S.sort responses))
    (w : HealthWorld) :
    Run healthHandler (useResponses S responses, w)
      (.ret (true, some best.res), (w.updateActiveJsonRpcUrlAndLastCheck best.url
        now).updateBeJsonRpcUrls ((S.sort responses).map (·.url))) := by
  unfold useResponses
  rw [hbest]
  have hnow : healthHandler.allows .now now w := trivial
  have hupdate : healthHandler.allows (.updateActiveJsonRpcUrlAndLastCheck best.url now) () w :=
    trivial
  have hstore : healthHandler.allows
      (.updateBeJsonRpcUrlsIfExists ((S.sort responses).map (·.url)))
      (.ok w.beJsonRpcUrls.isSome) (w.updateActiveJsonRpcUrlAndLastCheck best.url now) := rfl
  exact (Run.perform hnow).seq ((Run.perform hupdate).seq ((Run.perform hstore).seq .refl))

/-! ## A self-maintained URL -/

theorem ResponseByJsonRpcUrl.cmp_nonpos_iff (l r : ResponseByJsonRpcUrl) :
    l.cmp r ≤ 0 ↔ r.res.latestBlock < l.res.latestBlock ∨
      (l.res.latestBlock = r.res.latestBlock ∧ l.duration ≤ r.duration) := by
  unfold cmp
  split_ifs <;> omega

/-- Sorting by insertion. -/
def insertionSortFunc : SortFunc where
  sort l := l.insertionSort fun l r => l.cmp r ≤ 0
  perm l := List.perm_insertionSort _ l
  sorted l := by
    have htotal : Std.Total fun l r : ResponseByJsonRpcUrl => l.cmp r ≤ 0 :=
      ⟨fun l r => by simp only [ResponseByJsonRpcUrl.cmp_nonpos_iff]; omega⟩
    have htrans : IsTrans _ fun l r : ResponseByJsonRpcUrl => l.cmp r ≤ 0 :=
      ⟨fun a b c => by simp only [ResponseByJsonRpcUrl.cmp_nonpos_iff]; omega⟩
    exact List.pairwise_insertionSort _ l

/-- A chain with a public URL and a self-maintained one, and an indexer without an active URL. -/
def twoUrls : HealthWorld where
  indexer := newIndexer "rollapp"
    ⟨"rollapp_1-1", ["https://be.example", "https://be.1ocalhost.online"], false⟩
  array := none
  sharesArray := true
  beJsonRpcUrls := some []
  responses := []
  chosen := none

/-- What the URLs answer: the self-maintained one is `behind` blocks behind. -/
def answerBehind (behind : ℤ) (url : String) : Except Error (ResponseBeGetChainInfo × ℤ) :=
  .ok (⟨∅, "rollapp_1-1", "evm", ∅,
    if url = "https://be.example" then 100 else 100 - behind, 1720000000⟩, 5)

/-- The responses of the two URLs. -/
def responsesBehind (behind : ℤ) : List ResponseByJsonRpcUrl :=
  responsesOf (answerBehind behind) twoUrls.urls

/-- The world after a refresh that has made `best` active. -/
def refreshedTwoUrls (behind : ℤ) (best : String) : HealthWorld :=
  ((twoUrls.getBeRpcUrls.respondAll (responsesBehind behind)).updateActiveJsonRpcUrlAndLastCheck
    best 1720000000).updateBeJsonRpcUrls
      ((insertionSortFunc.sort (responsesBehind behind)).map (·.url))

theorem run_twoUrls {behind : ℤ} {best : String}
    (hbest : (getTop insertionSortFunc (responsesBehind behind)).1.map (·.url) = some best) :
    ∃ info, SharedRun ReloadStep healthHandler
      (refreshActiveJsonRpcUrl insertionSortFunc 60, twoUrls)
      (.ret (true, info), refreshedTwoUrls behind best) := by
  rcases htop : getTop insertionSortFunc (responsesBehind behind) with ⟨_ | response, sorted⟩
  · rw [htop] at hbest
    cases hbest
  · rw [htop] at hbest
    obtain rfl := Option.some.inj hbest
    obtain ⟨-, rfl⟩ := getTop_some htop
    have hrefresh := run_refreshActiveJsonRpcUrl (w := twoUrls) insertionSortFunc 60
      (answerBehind behind) rfl
    exact ⟨_, Run.shared (hrefresh.trans (run_useResponses insertionSortFunc 1720000000 htop _))⟩

/-- A self-maintained URL that is far behind is not preferred. -/
theorem farBehind_bestFirst : BestFirst (refreshedTwoUrls 20 "https://be.example") := by
  have hbest : (getTop insertionSortFunc (responsesBehind 20)).1.map (·.url) =
    some "https://be.example" := by decide
  obtain ⟨info, hrun⟩ := run_twoUrls hbest
  exact (stored_bestFirst_iff insertionSortFunc 60 rfl hrun).2 (by decide)

/-- One that is only a few blocks behind is made active, and stored last. -/
theorem fewBehind_notBestFirst :
    (∃ info, SharedRun ReloadStep healthHandler
      (refreshActiveJsonRpcUrl insertionSortFunc 60, twoUrls)
      (.ret (true, info), refreshedTwoUrls 5 "https://be.1ocalhost.online")) ∧
    ¬ BestFirst (refreshedTwoUrls 5 "https://be.1ocalhost.online") := by
  refine ⟨run_twoUrls (by decide), ?_⟩
  rintro ⟨urls, best, hurls, hchosen, -, hhead, -⟩
  have hstored : (refreshedTwoUrls 5 "https://be.1ocalhost.online").beJsonRpcUrls =
    some ["https://be.example", "https://be.1ocalhost.online"] := by decide
  obtain rfl := Option.some.inj (hstored.symm.trans hurls)
  obtain rfl := Option.some.inj hchosen
  exact absurd hhead (by decide)

end RollappExplorer
