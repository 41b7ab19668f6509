/-
  The cache of the database queries of the web app (`utils/cache.ts`, `utils/prismaCache.ts`,
  `api/health/indexing-fallbehind-chains/route.ts`, `services/db/chainInfo.ts`).

  * `cache`, `queryWithCache`: the request that a call makes of the store of all cached results;
  * `cacheKey_inj`: the key of a result tells the query and its arguments;
  * `queries_fresh`: in every interleaving of calls, a result answers its own query, and is not
    older than the time to live;
  * `reactCache`: the calls of `getChainInfos` that are left in every rendering;
  * `getChainInfos_sameSecond`: the chains that a rendering displays were queried in the second of
    its first call.
-/
import RollappExplorer.Js.TimedCache
import RollappExplorer.Postponement
import RollappExplorer.TransactionSearch

namespace RollappExplorer

open Js Sql

/-! ## Keys -/

def defaultCacheDuration : ℤ := 10

/-- A stable `JSON.stringify` of the arguments: it tells them, and is the text of an array. -/
structure Stringify (A : Type) where
  apply : List A → String
  injective : Function.Injective apply
  bracket : ∀ args, ∃ rest, (apply args).toList = '[' :: rest

/-- `[key, stringify(args)].join()` -/
def cacheKey {A : Type} (stringify : Stringify A) (key : String) (args : List A) : String :=
  key ++ "," ++ stringify.apply args

/-- `revalidateInSecond || DEFAULT_CACHE_DURATION`; it is `none` if it is `false` or undefined. -/
def revalidateSeconds : Option ℤ → ℤ
  | none | some 0 => defaultCacheDuration
  | some n => n

/-- `cache`: the request of a call with `args`. -/
def cache {A Q : Type} (stringify : Stringify A) (funcToCache : List A → Q) (key : String)
    (revalidateInSecond : Option ℤ) (args : List A) : TimedCache.Request Q where
  question := funcToCache args
  cached := some (cacheKey stringify key args, revalidateSeconds revalidateInSecond)

/-! ## Queries -/

/-- The models of `schema.prisma`. -/
inductive PrismaModel where
  | account | chainInfo | refAccountToRecentTx | transaction | failedBlock
  | recentAccountTransaction | reducedRefCountRecentAccountTransaction | ibcTransaction
  | partitionTableInfo
  deriving DecidableEq

def PrismaModel.name : PrismaModel → String
  | account => "account"
  | chainInfo => "chain_info"
  | refAccountToRecentTx => "ref_account_to_recent_tx"
  | transaction => "transaction"
  | failedBlock => "failed_block"
  | recentAccountTransaction => "recent_account_transaction"
  | reducedRefCountRecentAccountTransaction => "reduced_ref_count_recent_account_transaction"
  | ibcTransaction => "ibc_transaction"
  | partitionTableInfo => "partition_table_info"

inductive Operation where
  | aggregate | count | findFirst | findFirstOrThrow | findMany | findUnique | findUniqueOrThrow
  | groupBy
  deriving DecidableEq

def Operation.name : Operation → String
  | aggregate => "aggregate"
  | count => "count"
  | findFirst => "findFirst"
  | findFirstOrThrow => "findFirstOrThrow"
  | findMany => "findMany"
  | findUnique => "findUnique"
  | findUniqueOrThrow => "findUniqueOrThrow"
  | groupBy => "groupBy"

/-- What is asked of the database. -/
inductive DbQuestion (A : Type) where
  | prisma (model : PrismaModel) (action : Operation) (queryArgs : Option A)
  | fallbehindChains

structure CacheStrategy where
  enabled : Bool
  revalidate : Option ℤ

section
variable {A : Type} (stringify : Stringify A)

/-- `['prisma', name, action].join()` -/
def prismaKey (model : PrismaModel) (action : Operation) : String :=
  "prisma" ++ "," ++ model.name ++ "," ++ action.name

/-- `queryWithCache`; `args` are the arguments of the query and the strategy, if there are any. -/
def queryWithCache (model : PrismaModel) (action : Operation)
    (args : Option (A × Option CacheStrategy)) : TimedCache.Request (DbQuestion A) :=
  match args with
  | none => ⟨.prisma model action none, none⟩
  | some (queryArgs, none) => ⟨.prisma model action (some queryArgs), none⟩
  | some (queryArgs, some cacheStrategy) =>
    if !cacheStrategy.enabled then ⟨.prisma model action (some queryArgs), none⟩
    else cache stringify (fun args => .prisma model action args.head?) (prismaKey model action)
      cacheStrategy.revalidate [queryArgs]

/-- `getIndexingFallBehindChains` -/
def getIndexingFallBehindChains : TimedCache.Request (DbQuestion A) :=
  cache stringify (fun _ => .fallbehindChains) "get_indexing_fallbehind_chains"
    (some defaultCacheDuration) []

/-- The requests of the web app. -/
inductive AppRequest : TimedCache.Request (DbQuestion A) → Prop
  | prisma (model : PrismaModel) (action : Operation) (args : Option (A × Option CacheStrategy)) :
    AppRequest (queryWithCache stringify model action args)
  | fallbehindChains : AppRequest (getIndexingFallBehindChains stringify)

variable {stringify}

/-- The key of a result tells the key of the function and the arguments. -/
theorem cacheKey_inj {key key' : String} {args args' : List A} (hkey : '[' ∉ key.toList)
    (hkey' : '[' ∉ key'.toList) (h : cacheKey stringify key args = cacheKey stringify key' args') :
    key = key' ∧ args = args' := by
  obtain ⟨rest, hrest⟩ := stringify.bracket args
  obtain ⟨rest', hrest'⟩ := stringify.bracket args'
  have hl := congrArg String.toList h
  simp only [cacheKey, String.toList_append, hrest, hrest'] at hl
  have hcomma : ∀ k : String, '[' ∉ k.toList → '[' ∉ k.toList ++ ",".toList := by
    intro k hk hm
    rcases List.mem_append.1 hm with hm | hm
    · exact hk hm
    · exact absurd hm (by decide)
  obtain ⟨hkeys, hrests⟩ := Go.append_separator_inj (hcomma key hkey) (hcomma key' hkey') hl
  refine ⟨String.toList_injective (List.append_cancel_right hkeys), stringify.injective ?_⟩
  exact String.toList_injective (by rw [hrest, hrest', hrests])

theorem PrismaModel.name_injective : Function.Injective PrismaModel.name := by
  intro a b
  cases a <;> cases b <;> decide

theorem Operation.name_injective : Function.Injective Operation.name := by
  intro a b
  cases a <;> cases b <;> decide

/-- The names of models have neither a comma nor a bracket. -/
theorem PrismaModel.name_plain (model : PrismaModel) :
    ',' ∉ model.name.toList ∧ '[' ∉ model.name.toList := by
  cases model <;> decide

theorem Operation.name_plain (action : Operation) : '[' ∉ action.name.toList := by
  cases action <;> decide

theorem prismaKey_plain (model : PrismaModel) (action : Operation) :
    '[' ∉ (prismaKey model action).toList := by
  have hm := model.name_plain.2
  have ha := action.name_plain
  simp only [prismaKey, String.toList_append, List.mem_append]
  rintro ((((h | h) | h) | h) | h)
  · exact absurd h (by decide)
  · exact absurd h (by decide)
  · exact hm h
  · exact absurd h (by decide)
  · exact ha h

theorem prismaKey_inj {model model' : PrismaModel} {action action' : Operation}
    (h : prismaKey model action = prismaKey model' action') :
    model = model' ∧ action = action' := by
  have hl := congrArg String.toList h
  simp only [prismaKey, String.toList_append, List.append_assoc] at hl
  have hl := List.append_cancel_left (List.append_cancel_left hl)
  obtain ⟨hm, ha⟩ := Go.append_separator_inj model.name_plain.1 model'.name_plain.1 hl
  exact ⟨PrismaModel.name_injective (String.toList_injective hm),
    Operation.name_injective (String.toList_injective ha)⟩

/-- The key of a cached request. -/
theorem AppRequest.cached_cases {r : TimedCache.Request (DbQuestion A)}
    (h : AppRequest stringify r) {key : String} {ttl : ℤ} (hc : r.cached = some (key, ttl)) :
    (∃ model action queryArgs, r.question = .prisma model action (some queryArgs) ∧
      key = cacheKey stringify (prismaKey model action) [queryArgs]) ∨
    (r.question = .fallbehindChains ∧
      key = cacheKey stringify "get_indexing_fallbehind_chains" []) := by
  cases h with
  | fallbehindChains => exact .inr ⟨rfl, (congrArg Prod.fst (Option.some.inj hc)).symm⟩
  | prisma model action args =>
    rcases args with _ | ⟨queryArgs, _ | cacheStrategy⟩
    · cases hc
    · cases hc
    · unfold queryWithCache at hc ⊢
      dsimp only at hc ⊢
      split_ifs at hc ⊢ with henabled
      exact .inl ⟨model, action, queryArgs, rfl, (congrArg Prod.fst (Option.some.inj hc)).symm⟩

/-- Requests with the same key ask the same. -/
theorem AppRequest.question_eq {r r' : TimedCache.Request (DbQuestion A)}
    (h : AppRequest stringify r) (h' : AppRequest stringify r') {key : String} {ttl ttl' : ℤ}
    (hc : r.cached = some (key, ttl)) (hc' : r'.cached = some (key, ttl')) :
    r.question = r'.question := by
  have hplain : '[' ∉ "get_indexing_fallbehind_chains".toList := by decide
  rcases h.cached_cases hc with ⟨model, action, queryArgs, hq, rfl⟩ | ⟨hq, rfl⟩
  · rcases h'.cached_cases hc' with ⟨model', action', queryArgs', hq', he⟩ | ⟨-, he⟩
    · obtain ⟨hkey, hargs⟩ :=
        cacheKey_inj (prismaKey_plain model action) (prismaKey_plain model' action') he
      obtain ⟨rfl, rfl⟩ := prismaKey_inj hkey
      rw [hq, hq', (List.cons.inj hargs).1]
    · cases (cacheKey_inj (prismaKey_plain model action) hplain he).2
  · rcases h'.cached_cases hc' with ⟨model', action', queryArgs', -, he⟩ | ⟨hq', -⟩
    · cases (cacheKey_inj hplain (prismaKey_plain model' action') he).2
    · rw [hq, hq']

/-! ## Results -/

variable {V : Type}

/-- What a result says: the answer to its own question, its own or one that is cached. -/
structure FreshResult (truthy : V → Bool) (r : TimedCache.Returned (DbQuestion A) V)
    (a : TimedCache.Answered (DbQuestion A) V) : Prop where
  question : a.request.question = r.request.question
  value : a.value = r.value
  asked : a.askedAt ≤ a.answeredAt
  answered : a.answeredAt ≤ r.returnedAt
  ttl : a.askedAt = r.calledAt ∧ a.answeredAt = r.returnedAt ∨
    ∃ key ttl, a.request.cached = some (key, ttl) ∧ r.returnedAt ≤ a.answeredAt + 1000 * ttl
  own : r.request.cached = none ∨ truthy r.value = false →
    a.askedAt = r.calledAt ∧ a.answeredAt = r.returnedAt

/-- Every result has an answer it stands for. -/
theorem run_freshResult {stringify : Stringify A} {store : TimedCache.Store V}
    {truthy : V → Bool} {events : List (ℤ × TimedCache.Event (DbQuestion A) V)}
    (hclock : (events.map Prod.fst).Pairwise (· ≤ ·))
    (hcalled : (TimedCache.run store truthy events).Called fun _ => AppRequest stringify)
    {r : TimedCache.Returned (DbQuestion A) V}
    (hr : r ∈ (TimedCache.run store truthy events).results) :
    ∃ a ∈ (TimedCache.run store truthy events).answers, FreshResult truthy r a := by
  obtain ⟨a, ha, hfrom, hasked⟩ := TimedCache.run_fresh hclock r hr
  refine ⟨a, ha, ?_⟩
  cases hfrom with
  | own hreq hvalue hcalledAt hreturned =>
    exact ⟨by rw [hreq], hvalue, hasked, hreturned.le, .inl ⟨hcalledAt, hreturned⟩,
      fun _ => ⟨hcalledAt, hreturned⟩⟩
  | cached hc hc' hvalue htruthy _ hle httl =>
    refine ⟨(hcalled.answers a ha).question_eq (hcalled.results r hr) hc hc', hvalue, hasked, hle,
      .inr ⟨_, _, hc, httl⟩, ?_⟩
    rintro (hnone | hfalsy)
    · rw [hnone] at hc'
      cases hc'
    · rw [htruthy] at hfalsy
      cases hfalsy

/-- **Results are fresh and never mixed up.**  In every interleaving of the calls of the web app,
    while the clock does not go back, what a call returns is an answer of the database to its own
    query and arguments, which is not older than its time to live; without the cache, and for
    results that are not truthy, it is the answer to the call itself. -/
theorem queries_fresh (stringify : Stringify A) (store : TimedCache.Store V) (truthy : V → Bool)
    (events : List (ℤ × TimedCache.Event (DbQuestion A) V))
    (hclock : (events.map Prod.fst).Pairwise (· ≤ ·))
    (hcalls : ∀ e ∈ events, ∀ id r, e.2 = .call id r → AppRequest stringify r) :
    ∀ r ∈ (TimedCache.run store truthy events).results,
      ∃ a ∈ (TimedCache.run store truthy events).answers, FreshResult truthy r a := by
  intro r hr
  exact run_freshResult hclock (TimedCache.run_called hcalls) hr

/-! ## The chains that are displayed -/

/-- `dayjs().unix()`, at a time in milliseconds. -/
def unixSeconds (now : ℤ) : ℤ := now / 1000

/-- A condition on a chain, as the arguments of a query have it. -/
inductive ActiveCondition where
  | postponed (value : Option Bool)
  | expiryAtEpochNull
  | expiryAtEpochGt (unix : ℤ)

/-- What the condition says of a row. -/
def ActiveCondition.holds : ActiveCondition → ChainInfoRow → Truth
  | .postponed none, row => isNull row.postponed
  | .postponed (some value), row => compare (· == value) row.postponed
  | .expiryAtEpochNull, row => isNull row.expiryAtEpoch
  | .expiryAtEpochGt unix, row => compare (fun expiry => unix < expiry) row.expiryAtEpoch

def getExcludePostponedChainCondition (now : ℤ) : List (List ActiveCondition) :=
  [[.postponed none, .postponed (some false)],
    [.expiryAtEpochNull, .expiryAtEpochGt (unixSeconds now)]]

/-- The filter is that of the second in which it is made. -/
theorem getExcludePostponedChainCondition_holds (now : ℤ) :
    (getExcludePostponedChainCondition now).map (List.map ActiveCondition.holds) =
      excludePostponedChainCondition (unixSeconds now) := rfl

theorem getExcludePostponedChainCondition_inj {now now' : ℤ}
    (h : getExcludePostponedChainCondition now = getExcludePostponedChainCondition now') :
    unixSeconds now = unixSeconds now' := by
  simp only [getExcludePostponedChainCondition, List.cons.injEq, and_true, true_and] at h
  exact ActiveCondition.expiryAtEpochGt.inj h

/-- The arguments of `getChainInfos`, which always selects the same columns, or of another query. -/
inductive QueryArgs (B : Type) where
  | chainInfos (AND : List (List ActiveCondition))
  | other (args : B)

end

section
variable {B V : Type} (stringify : Stringify (QueryArgs B))

/-- The query of `getChainInfos`. -/
def chainInfosRequest (now : ℤ) : TimedCache.Request (DbQuestion (QueryArgs B)) :=
  queryWithCache stringify .chainInfo .findMany
    (some (.chainInfos (getExcludePostponedChainCondition now), some ⟨true, none⟩))

/-- Another request of the web app. -/
structure OtherRequest (r : TimedCache.Request (DbQuestion (QueryArgs B))) : Prop where
  request : AppRequest stringify r
  other : ∀ conditions, r.question ≠ .prisma .chainInfo .findMany (some (.chainInfos conditions))

/-- A call of `getChainInfos` in a rendering, or another event. -/
inductive RenderEvent (B V : Type) where
  | getChainInfos (render id : ℕ)
  | other (e : TimedCache.Event (DbQuestion (QueryArgs B)) V)

/-- The `cache` of React: in a rendering, only the first call of `getChainInfos` makes its query. -/
def reactCache (renders : List ℕ) : List (ℤ × RenderEvent B V) →
    List (ℤ × TimedCache.Event (DbQuestion (QueryArgs B)) V)
  | [] => []
  | (now, .getChainInfos render id) :: events =>
    if render ∈ renders then reactCache renders events
    else (now, .call id (chainInfosRequest stringify now)) :: reactCache (render :: renders) events
  | (now, .other e) :: events => (now, e) :: reactCache renders events

/-- The promise that the calls in a rendering get: the time and the number of its first call. -/
def promiseOf (render : ℕ) : List (ℤ × RenderEvent B V) → Option (ℤ × ℕ)
  | [] => none
  | (now, .getChainInfos render' id) :: events =>
    if render' = render then some (now, id) else promiseOf render events
  | (_, .other _) :: events => promiseOf render events

variable {stringify} {events : List (ℤ × RenderEvent B V)} {renders : List ℕ} {render : ℕ}

theorem reactCache_sublist :
    ((reactCache stringify renders events).map Prod.fst).Sublist (events.map Prod.fst) := by
  induction events generalizing renders with
  | nil => exact List.Sublist.refl []
  | cons e events ih =>
    obtain ⟨now, e⟩ := e
    cases e with
    | other e => exact ih.cons_cons now
    | getChainInfos render id =>
      unfold reactCache
      split_ifs
      · exact ih.cons now
      · exact ih.cons_cons now

/-- The calls that are made of the store. -/
theorem reactCache_calls {e : ℤ × TimedCache.Event (DbQuestion (QueryArgs B)) V}
    (he : e ∈ reactCache stringify renders events) {id : ℕ}
    {r : TimedCache.Request (DbQuestion (QueryArgs B))} (hcall : e.2 = .call id r) :
    r = chainInfosRequest stringify e.1 ∨ (e.1, .other (.call id r)) ∈ events := by
  induction events generalizing renders with
  | nil => cases he
  | cons e' events ih =>
    obtain ⟨now, e'⟩ := e'
    cases e' with
    | other e' =>
      rcases List.mem_cons.1 he with rfl | he
      · obtain rfl : e' = .call id r := hcall
        exact .inr List.mem_cons_self
      · exact (ih he).imp_right (List.mem_cons_of_mem _)
    | getChainInfos render' id' =>
      unfold reactCache at he
      split_ifs at he
      · exact (ih he).imp_right (List.mem_cons_of_mem _)
      · rcases List.mem_cons.1 he with rfl | he
        · exact .inl (TimedCache.Event.call.inj hcall).2.symm
        · exact (ih he).imp_right (List.mem_cons_of_mem _)

/-- A call gets the promise of the first call in its rendering, which was not made later, and the
    query of which was made. -/
theorem exists_promiseOf (stringify : Stringify (QueryArgs B))
    (hclock : (events.map Prod.fst).Pairwise (· ≤ ·))
    (hrender : render ∉ renders) {now : ℤ} {id : ℕ}
    (h : (now, .getChainInfos render id) ∈ events) : ∃ made id',
      promiseOf render events = some (made, id') ∧ made ≤ now ∧
        (made, .call id' (chainInfosRequest stringify made)) ∈
          reactCache stringify renders events := by
  induction events generalizing renders with
  | nil => cases h
  | cons e events ih =>
    obtain ⟨now', e⟩ := e
    obtain ⟨hfirst, hrest⟩ := List.pairwise_cons.1 hclock
    cases e with
    | other e =>
      obtain ⟨made, id', hpromise, hle, hmem⟩ :=
        ih hrest hrender ((List.mem_cons.1 h).resolve_left (by simp))
      exact ⟨made, id', hpromise, hle, List.mem_cons_of_mem _ hmem⟩
    | getChainInfos render' id' =>
      unfold promiseOf reactCache
      by_cases hsame : render' = render
      · subst hsame
        rw [if_pos rfl, if_neg hrender]
        refine ⟨now', id', rfl, ?_, List.mem_cons_self⟩
        rcases List.mem_cons.1 h with h | h
        · rw [(Prod.mk.inj h).1]
        · exact hfirst now (List.mem_map_of_mem h)
      · have htail : (now, RenderEvent.getChainInfos render id) ∈ events := by
          refine (List.mem_cons.1 h).resolve_left fun h => hsame ?_
          exact (RenderEvent.getChainInfos.inj (Prod.mk.inj h).2).1.symm
        rw [if_neg hsame]
        split_ifs with hrendered
        · exact ih hrest hrender htail
        · obtain ⟨made, id'', hpromise, hle, hmem⟩ :=
            ih hrest (mt List.mem_cons.1 (not_or.2 ⟨Ne.symm hsame, hrender⟩)) htail
          exact ⟨made, id'', hpromise, hle, List.mem_cons_of_mem _ hmem⟩

/-- A call of the store is the query of `getChainInfos` in that second, or another one. -/
theorem chainInfos_unix {now now' : ℤ} {r : TimedCache.Request (DbQuestion (QueryArgs B))}
    (h : r = chainInfosRequest stringify now ∨ OtherRequest stringify r)
    (hq : r.question = (chainInfosRequest stringify now').question) :
    unixSeconds now = unixSeconds now' := by
  rcases h with rfl | h
  · exact getExcludePostponedChainCondition_inj
      (QueryArgs.chainInfos.inj (Option.some.inj (DbQuestion.prisma.inj hq).2.2))
  · exact absurd hq (h.other _)

/-- **The chains that are displayed were queried in the second of the rendering.**  A call of
    `getChainInfos` gets the promise of the first call in its rendering; what this promise yields
    was queried in the second in which it was made, with the filter of this second, as the cache
    only serves calls of the same second. -/
theorem getChainInfos_sameSecond (stringify : Stringify (QueryArgs B))
    (store : TimedCache.Store V) (truthy : V → Bool) (events : List (ℤ × RenderEvent B V))
    (hclock : (events.map Prod.fst).Pairwise (· ≤ ·))
    (hother : ∀ e ∈ events, ∀ id r, e.2 = .other (.call id r) → OtherRequest stringify r)
    (now : ℤ) (render id : ℕ) (hcall : (now, .getChainInfos render id) ∈ events) :
    ∃ made id', promiseOf render events = some (made, id') ∧ made ≤ now ∧
      (made, .call id' (chainInfosRequest stringify made)) ∈ reactCache stringify [] events ∧
      ∀ r ∈ (TimedCache.run store truthy (reactCache stringify [] events)).results,
        r.request = chainInfosRequest stringify made → r.calledAt = made →
        ∃ a ∈ (TimedCache.run store truthy (reactCache stringify [] events)).answers,
          a.value = r.value ∧ unixSeconds a.askedAt = unixSeconds made ∧
          a.request.question = .prisma .chainInfo .findMany
            (some (QueryArgs.chainInfos (getExcludePostponedChainCondition a.askedAt))) := by
  obtain ⟨made, id', hpromise, hle, hmade⟩ :=
    exists_promiseOf stringify hclock List.not_mem_nil hcall
  refine ⟨made, id', hpromise, hle, hmade, fun r hr hreq _ => ?_⟩
  have hcalls : ∀ e ∈ reactCache stringify [] events, ∀ id r, e.2 = .call id r →
      r = chainInfosRequest stringify e.1 ∨ OtherRequest stringify r := fun e he id r h =>
    (reactCache_calls he h).imp_right fun hm => hother _ hm id r rfl
  have hcalled : (TimedCache.run store truthy (reactCache stringify [] events)).Called
      fun now r => r = chainInfosRequest stringify now ∨ OtherRequest stringify r :=
    TimedCache.run_called hcalls
  have hrequests : (TimedCache.run store truthy (reactCache stringify [] events)).Called
      fun _ => AppRequest stringify := by
    refine TimedCache.run_called fun e he id r h => ?_
    rcases hcalls e he id r h with rfl | h
    · exact .prisma _ _ _
    · exact h.request
  obtain ⟨a, ha, hfresh⟩ := run_freshResult (hclock.sublist reactCache_sublist) hrequests hr
  have hq : a.request.question = (chainInfosRequest stringify made).question := by
    rw [hfresh.question, hreq]
  have hunix := chainInfos_unix (hcalled.answers a ha) hq
  refine ⟨a, ha, hfresh.value, hunix, hq.trans ?_⟩
  show DbQuestion.prisma _ _
    (some (QueryArgs.chainInfos (getExcludePostponedChainCondition made))) = _
  rw [getExcludePostponedChainCondition, ← hunix]
  rfl

end

/-! ## Texts of arguments -/

/-- A text that tells what it is of, and where it ends. -/
def Readable {α : Type} (text : α → List Char) : Prop :=
  ∀ a b l l', text a ++ l = text b ++ l' → a = b ∧ l = l'

/-- The further elements of an array, and its end. -/
def moreItems {α : Type} (text : α → List Char) : List α → List Char
  | [] => [']']
  | a :: items => ',' :: (text a ++ moreItems text items)

/-- The text of an array. -/
def arrayText {α : Type} (text : α → List Char) : List α → List Char
  | [] => ['[', ']']
  | a :: items => '[' :: (text a ++ moreItems text items)

theorem Readable.items {α : Type} {text : α → List Char} (h : Readable text) :
    Readable (moreItems text) := by
  intro items
  induction items with
  | nil =>
    rintro (_ | ⟨b, items'⟩) l l' he
    · exact ⟨rfl, (List.cons.inj he).2⟩
    · exact absurd (List.cons.inj he).1 (by decide)
  | cons a items ih =>
    rintro (_ | ⟨b, items'⟩) l l' he
    · exact absurd (List.cons.inj he).1 (by decide)
    · simp only [moreItems, List.cons_append, List.append_assoc] at he
      obtain ⟨rfl, hrest⟩ := h _ _ _ _ (List.cons.inj he).2
      obtain ⟨rfl, rfl⟩ := ih _ _ _ hrest
      exact ⟨rfl, rfl⟩

/-- An array can be read if its elements can, and none of them begins like its end. -/
theorem Readable.array {α : Type} {text : α → List Char} (h : Readable text)
    (hstart : ∀ a, ∃ c l, text a = c :: l ∧ c ≠ ']') : Readable (arrayText text) := by
  have hempty : ∀ a l l', ']' :: l ≠ text a ++ l' := by
    intro a l l' he
    obtain ⟨c, rest, htext, hc⟩ := hstart a
    rw [htext] at he
    exact hc (List.cons.inj he).1.symm
  rintro (_ | ⟨a, items⟩) (_ | ⟨b, items'⟩) l l' he <;>
    simp only [arrayText, List.cons_append, List.nil_append, List.append_assoc] at he
  · exact ⟨rfl, (List.cons.inj (List.cons.inj he).2).2⟩
  · exact absurd (List.cons.inj he).2 (hempty _ _ _)
  · exact absurd (List.cons.inj he).2.symm (hempty _ _ _)
  · obtain ⟨rfl, hrest⟩ := h _ _ _ _ (List.cons.inj he).2
    obtain ⟨rfl, rfl⟩ := h.items _ _ _ _ hrest
    exact ⟨rfl, rfl⟩

/-- A text between two others. -/
theorem Readable.enclose {α : Type} {text : α → List Char} (h : Readable text)
    (pre post : List Char) : Readable fun a => pre ++ text a ++ post := by
  intro a b l l' he
  simp only [List.append_assoc] at he
  obtain ⟨rfl, hrest⟩ := h _ _ _ _ (List.append_cancel_left he)
  exact ⟨rfl, List.append_cancel_left hrest⟩

/-- The text of an integer, which a brace follows. -/
theorem readable_integer : Readable fun n : ℤ => (toString n).toList ++ ['\x7d'] := by
  have hdigits : ∀ n : ℤ, '\x7d' ∉ (toString n).toList := by
    intro n hn
    rcases Go.mem_toString hn with hc | hc
    · exact absurd hc (by decide)
    · exact absurd hc (by decide)
  intro n n' l l' he
  simp only [List.append_assoc, List.cons_append, List.nil_append] at he
  obtain ⟨hn, hrest⟩ := Go.append_separator_inj (hdigits n) (hdigits n') he
  exact ⟨Go.toString_inj (String.toList_injective hn), hrest⟩

/-- The texts of the conditions, up to a number. -/
def conditionTexts : List String :=
  ["\x7b\"postponed\":null\x7d", "\x7b\"postponed\":false\x7d", "\x7b\"postponed\":true\x7d",
    "\x7b\"expiry_at_epoch\":null\x7d", "\x7b\"expiry_at_epoch\":\x7b\"gt\":"]

def ActiveCondition.kind : ActiveCondition → Fin 5
  | .postponed none => 0
  | .postponed (some false) => 1
  | .postponed (some true) => 2
  | .expiryAtEpochNull => 3
  | .expiryAtEpochGt _ => 4

def ActiveCondition.rest : ActiveCondition → List Char
  | .expiryAtEpochGt unix => (toString unix).toList ++ ['\x7d'] ++ ['\x7d']
  | .postponed _ | .expiryAtEpochNull => []

def ActiveCondition.text (c : ActiveCondition) : List Char :=
  (conditionTexts.get c.kind).toList ++ c.rest

/-- No text of a condition begins another one. -/
theorem conditionTexts_pairwise : conditionTexts.Pairwise fun a b =>
    ¬ a.toList <+: b.toList ∧ ¬ b.toList <+: a.toList := by
  decide +kernel

theorem conditionTexts_prefix_free (i j : Fin 5)
    (h : (conditionTexts.get i).toList <+: (conditionTexts.get j).toList) : i = j := by
  by_contra hne
  have hfree := List.pairwise_iff_get.1 conditionTexts_pairwise
  rcases lt_or_gt_of_ne hne with hlt | hlt
  · exact (hfree i j hlt).1 h
  · exact (hfree j i hlt).2 h

/-- Conditions of the same kind are the same, up to the numbers. -/
theorem eq_of_kind {a b : ActiveCondition} (h : a.kind = b.kind) :
    a = b ∨ ∃ unix unix', a = .expiryAtEpochGt unix ∧ b = .expiryAtEpochGt unix' := by
  rcases a with (_ | (_ | _)) | _ | unix <;> rcases b with (_ | (_ | _)) | _ | unix' <;>
    first
    | exact .inl rfl
    | exact .inr ⟨_, _, rfl, rfl⟩
    | simp [ActiveCondition.kind] at h

theorem readable_condition : Readable ActiveCondition.text := by
  intro a b l l' he
  unfold ActiveCondition.text at he
  rw [List.append_assoc, List.append_assoc] at he
  have hkind : a.kind = b.kind := by
    have hb : (conditionTexts.get b.kind).toList <+:
        (conditionTexts.get a.kind).toList ++ (a.rest ++ l) := he ▸ List.prefix_append _ _
    rcases List.prefix_or_prefix_of_prefix (List.prefix_append _ _) hb with h | h
    · exact conditionTexts_prefix_free _ _ h
    · exact (conditionTexts_prefix_free _ _ h).symm
  rw [hkind] at he
  have hrest := List.append_cancel_left he
  rcases eq_of_kind hkind with rfl | ⟨unix, unix', rfl, rfl⟩
  · exact ⟨rfl, List.append_cancel_left hrest⟩
  · obtain ⟨rfl, hl⟩ := (readable_integer.enclose [] _) _ _ _ _ hrest
    exact ⟨rfl, hl⟩

/-- `{ OR: […] }` -/
def disjunctionText (conditions : List ActiveCondition) : List Char :=
  "\x7b\"OR\":".toList ++ arrayText ActiveCondition.text conditions ++ ['\x7d']

/-- The text of the arguments of `getChainInfos`, up to the conditions. -/
def selectText : String :=
  "\x7b\"select\":\x7b\"be_json_rpc_urls\":true,\"bech32\":true,\"chain_id\":true," ++
    "\"chain_type\":true,\"denoms\":true,\"latest_indexed_block\":true,\"name\":true\x7d," ++
    "\"where\":\x7b\"AND\":"

def argsText : QueryArgs Empty → List Char
  | .chainInfos AND => selectText.toList ++ arrayText disjunctionText AND ++ "\x7d\x7d".toList

theorem exists_cons_of_head {l : List Char} {c : Char} (h : l.head? = some c) (hc : c ≠ ']')
    (l' : List Char) : ∃ c l'', l ++ l' = c :: l'' ∧ c ≠ ']' := by
  cases l with
  | nil => cases h
  | cons d l => exact ⟨d, l ++ l', rfl, Option.some.inj h ▸ hc⟩

theorem readable_args : Readable argsText := by
  have hconditions : Readable disjunctionText := by
    refine (readable_condition.array fun c => ?_).enclose _ _
    have hhead : ∀ i : Fin 5, (conditionTexts.get i).toList.head? = some '\x7b' := by
      decide +kernel
    exact exists_cons_of_head (hhead c.kind) (by decide) _
  have hwhere := hconditions.array fun conditions => by
    unfold disjunctionText
    rw [List.append_assoc]
    exact exists_cons_of_head (c := '\x7b') (by decide +kernel) (by decide) _
  rintro (AND | args) (AND' | args') l l' he
  · obtain ⟨rfl, hl⟩ := (hwhere.enclose _ _) _ _ _ _ he
    exact ⟨rfl, hl⟩
  · exact args'.elim
  · exact args.elim
  · exact args.elim

theorem argsText_head (args : QueryArgs Empty) : ∃ c l, argsText args = c :: l ∧ c ≠ ']' := by
  have hhead : selectText.toList.head? = some '\x7b' := by decide +kernel
  rcases args with AND | args
  · rw [argsText, List.append_assoc]
    exact exists_cons_of_head hhead (by decide) _
  · exact args.elim

/-- The texts of the arguments of `getChainInfos`. -/
def sampleStringify : Stringify (QueryArgs Empty) where
  apply args := String.ofList (arrayText argsText args)
  injective args args' h := by
    refine (readable_args.array argsText_head args args' [] [] ?_).1
    rw [String.ofList_injective h]
  bracket args := by
    rw [String.toList_ofList]
    cases args <;> exact ⟨_, rfl⟩

/-! ## Three calls -/

/-- Two renderings get the chains in one second, and the first one again in the next. -/
def sampleEvents : List (ℤ × RenderEvent Empty String) :=
  [(1720000000100, .getChainInfos 1 1), (1720000000200, .other (.answer 1 "rollapp_1-1")),
    (1720000000900, .getChainInfos 2 2), (1720000001300, .getChainInfos 1 3)]

/-- What the cache of React leaves of them. -/
theorem reactCache_sampleEvents : reactCache sampleStringify [] sampleEvents =
    [(1720000000100, .call 1 (chainInfosRequest sampleStringify 1720000000100)),
      (1720000000200, .answer 1 "rollapp_1-1"),
      (1720000000900, .call 2 (chainInfosRequest sampleStringify 1720000000100))] := rfl

/-- The result of the second rendering is cached. -/
def sampleResult : TimedCache.Returned (DbQuestion (QueryArgs Empty)) String :=
  ⟨chainInfosRequest sampleStringify 1720000000100, "rollapp_1-1", 1720000000900, 1720000000900⟩

theorem sampleResult_mem : sampleResult ∈ (TimedCache.run .exact (fun _ => true)
    (reactCache sampleStringify [] sampleEvents)).results := by
  rw [reactCache_sampleEvents]
  have hcached : (chainInfosRequest sampleStringify 1720000000100).cached =
      some (_, defaultCacheDuration) := rfl
  simp [TimedCache.run, TimedCache.step, TimedCache.found, hcached, TimedCache.Request.entries,
    TimedCache.Store.exact, TimedCache.State.initial, defaultCacheDuration, sampleResult]
  exact List.mem_cons_self

theorem queries_fresh_cached :
    ∃ a ∈ (TimedCache.run .exact (fun _ => true)
      (reactCache sampleStringify [] sampleEvents)).answers,
      FreshResult (fun _ => true) sampleResult a :=
  queries_fresh sampleStringify .exact (fun _ => true) (reactCache sampleStringify [] sampleEvents)
    (by decide)
    (by
      intro e he id' r h
      rcases reactCache_calls he h with rfl | hm
      · exact .prisma _ _ _
      · simp [sampleEvents] at hm) sampleResult sampleResult_mem

/-- The second call of the first rendering gets its first promise. -/
theorem getChainInfos_sameSecond_rendered : ∃ made id',
    promiseOf 1 sampleEvents = some (made, id') ∧ made ≤ 1720000001300 ∧
      (made, .call id' (chainInfosRequest sampleStringify made)) ∈
        reactCache sampleStringify [] sampleEvents ∧
      ∀ r ∈ (TimedCache.run .exact (fun _ => true)
          (reactCache sampleStringify [] sampleEvents)).results,
        r.request = chainInfosRequest sampleStringify made → r.calledAt = made →
        ∃ a ∈ (TimedCache.run .exact (fun _ => true)
            (reactCache sampleStringify [] sampleEvents)).answers,
          a.value = r.value ∧ unixSeconds a.askedAt = unixSeconds made ∧
          a.request.question = .prisma .chainInfo .findMany
            (some (QueryArgs.chainInfos (getExcludePostponedChainCondition a.askedAt))) :=
  getChainInfos_sameSecond sampleStringify .exact (fun _ => true) sampleEvents (by decide)
    (by
      intro e he id' r h
      simp only [sampleEvents, List.mem_cons, List.not_mem_nil, or_false] at he
      rcases he with rfl | rfl | rfl | rfl <;> cases h) 1720000001300 1 3
    (List.mem_of_getElem? (i := 3) rfl)

end RollappExplorer
