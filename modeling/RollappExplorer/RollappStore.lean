/-
  The store of the web app (`hooks/useStore.ts`, `stores/rollappStore.ts`, `utils/store.ts`,
  `utils/rollapp.ts`).

  An action reads the state when it is dispatched, and changes it when the dispatch goes on after
  its `await`, so that other actions may have been dispatched in between.

  * `Browser.dispatch`, `Browser.resume`: the two halves of a dispatch;
  * `store_rollapps`: in every interleaving the store keeps the rollapps, in the order of the
    favorites once the dispatch that orders them has gone on;
  * `store_view`: what is selected is what was navigated to, with its service and its metadata, if
    one dispatch that changes them is under way at a time.
-/
import RollappExplorer.DenomsMetadata
import RollappExplorer.HealthCheck
import RollappExplorer.RollappPaths

namespace RollappExplorer

open Js

/-! ## State -/

/-- A `RollappInfo`, without its field `isFavorite`, which is assigned in place. -/
structure RollappObject where
  path : String
  name : String
  chainId : String
  latestIndexedBlock : ℤ
  beJsonRpcUrls : List String
  deriving DecidableEq

/-- The rollapp as it is searched for. -/
def RollappObject.info (isFavorite : String → Bool) (x : RollappObject) : RollappSearchInfo where
  path := x.path
  isFavorite := isFavorite x.chainId
  name := x.name
  chainId := x.chainId
  latestIndexedBlock := x.latestIndexedBlock

structure RollappState where
  rollappInfos : List RollappObject
  selectedRollappInfo : Option RollappObject
  rpcService : Option RpcService
  denomsMetadata : DenomsMetadataMap
  hasGottenDenomsMetadata : Bool

/-- `Partial<RollappState>` -/
structure RollappPatch where
  rollappInfos : Option (List RollappObject)
  selectedRollappInfo : Option (Option RollappObject)
  rpcService : Option (Option RpcService)
  denomsMetadata : Option DenomsMetadataMap
  hasGottenDenomsMetadata : Option Bool

def RollappPatch.empty : RollappPatch := ⟨none, none, none, none, none⟩

/-- `{ ...store.state, ...newState }` -/
def RollappState.merge (s : RollappState) (newState : RollappPatch) : RollappState where
  rollappInfos := newState.rollappInfos.getD s.rollappInfos
  selectedRollappInfo := newState.selectedRollappInfo.getD s.selectedRollappInfo
  rpcService := newState.rpcService.getD s.rpcService
  denomsMetadata := newState.denomsMetadata.getD s.denomsMetadata
  hasGottenDenomsMetadata := newState.hasGottenDenomsMetadata.getD s.hasGottenDenomsMetadata

/-- `find(rollappInfo => rollappInfo.path === rollappPath) || null` -/
def getSelectedRollappInfoByPathname (rollappInfos : List RollappObject) (rollappPath : String) :
    Option RollappObject := rollappInfos.find? fun rollappInfo => rollappInfo.path = rollappPath

/-- What the choice of the service reads of a rollapp. -/
def RollappObject.toRollappInfo (x : RollappObject) : RollappInfo := ⟨x.beJsonRpcUrls⟩

/-- The service of the selected rollapp. -/
def selectedRpcService (selectedRollappInfo : Option RollappObject) : Option RpcService :=
  getRpcServiceFromSelectedRollappInfo (selectedRollappInfo.map RollappObject.toRollappInfo)

/-- The state for the path of a rollapp. -/
def getInitialRollappState (rollappInfos : List RollappObject) (rollappPath : String) :
    RollappState where
  rollappInfos
  selectedRollappInfo := getSelectedRollappInfoByPathname rollappInfos rollappPath
  rpcService := selectedRpcService (getSelectedRollappInfoByPathname rollappInfos rollappPath)
  denomsMetadata := ∅
  hasGottenDenomsMetadata := false

/-! ## Dispatches -/

inductive StoreAction where
  | populateChainDataByPathname (rollappPath : String)
  | updateDenomsMetadata (denomsMetadata : DenomsMetadataMap)
  | reOrderRollapps (newFavoriteInfo : Option (String × Bool))

/-- The store, the fields `isFavorite` of the rollapps and the favorites of the local storage, by
    chain ids, and the dispatches that wait to go on. -/
structure Browser where
  state : RollappState
  isFavorite : String → Bool
  favoriteRollapps : String → Bool
  pending : List RollappPatch

/-- What sorting the rollapps depends on. -/
structure StoreContext where
  sorting : Sorting
  localeCompare : String → String → ℤ

/-- The comparison of `getSortedRollappInfos`. -/
def compareFavorites (localeCompare : String → String → ℤ) (isFavorite : String → Bool)
    (a b : RollappObject) : ℤ :=
  if isFavorite a.chainId && !isFavorite b.chainId then -1
  else if isFavorite b.chainId && !isFavorite a.chainId then 1
  else localeCompare a.name b.name

/-- The fields `isFavorite` after those of the rollapps are assigned. -/
def assignFavorites (favoriteRollapps : String → Bool) (rollappInfos : List RollappObject)
    (isFavorite : String → Bool) : String → Bool := fun chainId =>
  if ∃ rollappInfo ∈ rollappInfos, rollappInfo.chainId = chainId then favoriteRollapps chainId
  else isFavorite chainId

/-- `setFavoriteRollapps`, if a favorite is changed. -/
def storeFavorite (newFavoriteInfo : Option (String × Bool)) (favoriteRollapps : String → Bool) :
    String → Bool :=
  match newFavoriteInfo with
  | none => favoriteRollapps
  | some (chainId, isFavorite) => Function.update favoriteRollapps chainId isFavorite

/-- The selected rollapp, if it is the one whose favorite is changed. -/
def reselect (newFavoriteInfo : Option (String × Bool)) (selectedRollappInfo : Option RollappObject)
    (rollappInfos : List RollappObject) : Option (Option RollappObject) :=
  match newFavoriteInfo with
  | none => none
  | some (chainId, _) =>
    if selectedRollappInfo.map RollappObject.chainId = some chainId then
      some (rollappInfos.find? fun i => i.chainId = chainId)
    else none

/-- The call of an action, up to the `await`. -/
def Browser.dispatch (ctx : StoreContext) (b : Browser) : StoreAction → Browser
  | .populateChainDataByPathname rollappPath =>
    if b.state.selectedRollappInfo.map RollappObject.path = some rollappPath then
      { b with pending := b.pending ++ [.empty] }
    else
      let selectedRollappInfo := getSelectedRollappInfoByPathname b.state.rollappInfos rollappPath
      { b with pending := b.pending ++ [⟨none, some selectedRollappInfo,
          some (selectedRpcService selectedRollappInfo), some ∅, some false⟩] }
  | .updateDenomsMetadata denomsMetadata =>
    { b with pending := b.pending ++ [⟨none, none, none, some denomsMetadata, some true⟩] }
  | .reOrderRollapps newFavoriteInfo =>
    let favoriteRollapps := storeFavorite newFavoriteInfo b.favoriteRollapps
    let isFavorite := assignFavorites favoriteRollapps b.state.rollappInfos b.isFavorite
    let rollappInfos :=
      ctx.sorting.sort (compareFavorites ctx.localeCompare isFavorite) b.state.rollappInfos
    { b with
      isFavorite
      favoriteRollapps
      pending := b.pending ++ [⟨some rollappInfos,
        reselect newFavoriteInfo b.state.selectedRollappInfo rollappInfos, none, none, none⟩] }

/-- The rest of the first dispatch that waits. -/
def Browser.resume (b : Browser) : Browser :=
  match b.pending with
  | [] => b
  | newState :: pending => { b with state := b.state.merge newState, pending }

inductive BrowserEvent where
  | dispatch (action : StoreAction)
  | resume
  /-- Another tab of the browser changes the favorites. -/
  | storage (favoriteRollapps : String → Bool)

def Browser.step (ctx : StoreContext) (b : Browser) : BrowserEvent → Browser
  | .dispatch action => b.dispatch ctx action
  | .resume => b.resume
  | .storage favoriteRollapps => { b with favoriteRollapps }

/-- The browser after the events of a page, which is opened at the path of a rollapp. -/
def Browser.run (ctx : StoreContext) (rollappInfos : List RollappObject) (rollappPath : String)
    (favoriteRollapps : String → Bool) (events : List BrowserEvent) : Browser :=
  events.foldl (Browser.step ctx)
    ⟨getInitialRollappState rollappInfos rollappPath, fun _ => false, favoriteRollapps, []⟩

/-- The state when all dispatches have gone on. -/
def Browser.settled (b : Browser) : RollappState := b.pending.foldl RollappState.merge b.state

/-! ## Interleavings -/

/-- The comparison is a consistent one. -/
structure Consistent {α : Type} (compare : α → α → ℤ) : Prop where
  swap : ∀ a b, compare a b < 0 ↔ 0 < compare b a
  trans : ∀ a b c, compare a b ≤ 0 → compare b c ≤ 0 → compare a c ≤ 0

/-- The assumption on `sort`: by a consistent comparison it sorts. -/
def Sorts (sorting : Sorting) : Prop :=
  ∀ {α : Type} (compare : α → α → ℤ) (l : List α), Consistent compare →
    (sorting.sort compare l).Pairwise fun a b => compare a b ≤ 0

section

variable {ctx : StoreContext} {b : Browser} {infos : List RollappObject} {action : StoreAction}

/-- What a dispatch changes when it has gone on, after those that wait. -/
theorem Browser.settled_push {p : RollappPatch} {isFavorite favoriteRollapps : String → Bool} :
    (Browser.mk b.state isFavorite favoriteRollapps (b.pending ++ [p])).settled =
      b.settled.merge p := by
  rw [Browser.settled, List.foldl_append]
  rfl

@[simp] theorem Browser.settled_resume : b.resume.settled = b.settled := by
  unfold Browser.resume
  split
  · rfl
  · rename_i p pending h
    rw [Browser.settled, Browser.settled, h]
    rfl

/-- The change keeps the rollapps, and selects none but them. -/
structure RollappPatch.Keeps (infos : List RollappObject) (p : RollappPatch) : Prop where
  rollappInfos : ∀ l ∈ p.rollappInfos, l.Perm infos
  selected : ∀ selected ∈ p.selectedRollappInfo, ∀ x ∈ selected, x ∈ infos

structure RollappState.Keeps (infos : List RollappObject) (s : RollappState) : Prop where
  rollappInfos : s.rollappInfos.Perm infos
  selected : ∀ x ∈ s.selectedRollappInfo, x ∈ infos

theorem RollappState.Keeps.merge {s : RollappState} {p : RollappPatch} (h : s.Keeps infos)
    (hp : p.Keeps infos) : (s.merge p).Keeps infos := by
  constructor
  · show (p.rollappInfos.getD s.rollappInfos).Perm infos
    cases hl : p.rollappInfos with
    | none => exact h.rollappInfos
    | some l => exact hp.rollappInfos l hl
  · show ∀ x ∈ p.selectedRollappInfo.getD s.selectedRollappInfo, x ∈ infos
    cases hx : p.selectedRollappInfo with
    | none => exact h.selected
    | some selected => exact hp.selected selected hx

/-- The store and the dispatches that wait keep the rollapps. -/
structure Browser.Keeps (infos : List RollappObject) (b : Browser) : Prop where
  state : b.state.Keeps infos
  pending : ∀ p ∈ b.pending, p.Keeps infos

theorem Browser.Keeps.settled (h : b.Keeps infos) : b.settled.Keeps infos := by
  obtain ⟨hstate, hpending⟩ := h
  unfold Browser.settled
  generalize b.state = s at hstate
  generalize b.pending = pending at hpending
  induction pending generalizing s with
  | nil => exact hstate
  | cons p pending ih =>
    obtain ⟨hp, hpending⟩ := List.forall_mem_cons.1 hpending
    exact ih _ (hstate.merge hp) hpending

theorem Browser.Keeps.dispatch (h : b.Keeps infos) (action : StoreAction) :
    (b.dispatch ctx action).Keeps infos := by
  have hfind : ∀ (q : RollappObject → Bool) (l : List RollappObject), l.Perm infos →
      ∀ x ∈ l.find? q, x ∈ infos :=
    fun q l hl x hx => hl.mem_iff.1 (List.mem_of_find?_eq_some hx)
  have hpush : ∀ {b' : Browser} {p : RollappPatch}, b'.state = b.state →
      b'.pending = b.pending ++ [p] → p.Keeps infos → b'.Keeps infos := by
    intro b' p hstate hpending hp
    refine ⟨hstate ▸ h.state, ?_⟩
    rw [hpending]
    exact List.forall_mem_append.2 ⟨h.pending, List.forall_mem_singleton.2 hp⟩
  cases action with
  | populateChainDataByPathname path =>
    simp only [Browser.dispatch]
    split_ifs
    · exact hpush rfl rfl ⟨nofun, nofun⟩
    · refine hpush rfl rfl ⟨nofun, fun selected hselected x hx => ?_⟩
      obtain rfl := Option.some.inj hselected
      exact hfind _ _ h.state.rollappInfos x hx
  | updateDenomsMetadata m => exact hpush rfl rfl ⟨nofun, nofun⟩
  | reOrderRollapps favorite =>
    have hsorted := (ctx.sorting.perm (compareFavorites ctx.localeCompare (assignFavorites
      (storeFavorite favorite b.favoriteRollapps) b.state.rollappInfos b.isFavorite))
      b.state.rollappInfos).trans h.state.rollappInfos
    refine hpush rfl rfl ⟨?_, ?_⟩
    · intro l hl
      obtain rfl := Option.some.inj hl
      exact hsorted
    · intro selected hselected x hx
      unfold reselect at hselected
      split at hselected
      · cases hselected
      · split_ifs at hselected
        · obtain rfl := Option.some.inj hselected
          exact hfind _ _ hsorted x hx
        · cases hselected

theorem Browser.Keeps.resume (h : b.Keeps infos) : b.resume.Keeps infos := by
  unfold Browser.resume
  split
  · exact h
  · rename_i p pending hpending
    have hall := h.pending
    rw [hpending] at hall
    obtain ⟨hp, hrest⟩ := List.forall_mem_cons.1 hall
    exact ⟨h.state.merge hp, hrest⟩

theorem Browser.Keeps.step (h : b.Keeps infos) (e : BrowserEvent) :
    (b.step ctx e).Keeps infos := by
  cases e with
  | dispatch action => exact h.dispatch action
  | resume => exact h.resume
  | storage favoriteRollapps => exact ⟨h.state, h.pending⟩

theorem Browser.keeps_run (ctx : StoreContext) (infos : List RollappObject) (path : String)
    (favoriteRollapps : String → Bool) (events : List BrowserEvent) :
    (Browser.run ctx infos path favoriteRollapps events).Keeps infos := by
  unfold Browser.run
  have hinitial : (Browser.mk (getInitialRollappState infos path) (fun _ => false)
      favoriteRollapps []).Keeps infos :=
    ⟨⟨List.Perm.refl infos, fun x hx => List.mem_of_find?_eq_some hx⟩, nofun⟩
  generalize Browser.mk (getInitialRollappState infos path) (fun _ => false) favoriteRollapps [] = b
    at hinitial
  induction events generalizing b with
  | nil => exact hinitial
  | cons e events ih => exact ih _ (hinitial.step e)

/-! ## The order of the rollapps -/

/-- The favorites come first, and are sorted by their names, as the others are. -/
def InOrder (localeCompare : String → String → ℤ) (isFavorite : String → Bool)
    (rollappInfos : List RollappObject) : Prop :=
  rollappInfos.Pairwise fun a b =>
    (isFavorite b.chainId = true → isFavorite a.chainId = true) ∧
      (isFavorite a.chainId = isFavorite b.chainId → localeCompare a.name b.name ≤ 0)

theorem compareFavorites_le_iff {localeCompare : String → String → ℤ} {isFavorite : String → Bool}
    {x y : RollappObject} : compareFavorites localeCompare isFavorite x y ≤ 0 ↔
      (isFavorite y.chainId = true → isFavorite x.chainId = true) ∧
        (isFavorite x.chainId = isFavorite y.chainId → localeCompare x.name y.name ≤ 0) := by
  unfold compareFavorites
  cases isFavorite x.chainId <;> cases isFavorite y.chainId <;> simp

theorem consistent_compareFavorites {localeCompare : String → String → ℤ}
    (h : Consistent localeCompare) (isFavorite : String → Bool) :
    Consistent (compareFavorites localeCompare isFavorite) where
  swap x y := by
    have hswap := h.swap x.name y.name
    unfold compareFavorites
    cases isFavorite x.chainId <;> cases isFavorite y.chainId <;> simp [hswap]
  trans x y z hxy hyz := by
    rw [compareFavorites_le_iff] at hxy hyz ⊢
    refine ⟨fun hz => hxy.1 (hyz.1 hz), fun he => ?_⟩
    have hmid : isFavorite x.chainId = isFavorite y.chainId := by
      cases hx : isFavorite x.chainId with
      | true => exact (hyz.1 (he ▸ hx)).symm
      | false =>
        cases hy : isFavorite y.chainId with
        | false => rfl
        | true => exact absurd (hxy.1 hy) (by rw [hx]; decide)
    exact h.trans _ _ _ (hxy.2 hmid) (hyz.2 (hmid ▸ he))

/-- The event is a dispatch that orders the rollapps. -/
def BrowserEvent.Orders (e : BrowserEvent) : Prop :=
  ∃ newFavoriteInfo, e = .dispatch (.reOrderRollapps newFavoriteInfo)

/-- The last order stays, as do the fields it assigned. -/
theorem Browser.step_of_not_orders (ctx : StoreContext) (b : Browser) {e : BrowserEvent}
    (he : ¬ e.Orders) :
    (b.step ctx e).isFavorite = b.isFavorite ∧
      (b.step ctx e).settled.rollappInfos = b.settled.rollappInfos := by
  cases e with
  | dispatch action =>
    cases action with
    | populateChainDataByPathname path =>
      simp only [Browser.step, Browser.dispatch]
      split_ifs
      · exact ⟨rfl, by rw [Browser.settled_push]; rfl⟩
      · exact ⟨rfl, by rw [Browser.settled_push]; rfl⟩
    | updateDenomsMetadata m =>
      refine ⟨rfl, ?_⟩
      rw [Browser.step, Browser.dispatch, Browser.settled_push]
      rfl
    | reOrderRollapps favorite => exact absurd ⟨favorite, rfl⟩ he
  | resume =>
    refine ⟨?_, by rw [Browser.step, Browser.settled_resume]⟩
    simp only [Browser.step, Browser.resume]
    split
    · rfl
    · rfl
  | storage favoriteRollapps => exact ⟨rfl, rfl⟩

theorem Browser.foldl_of_not_orders (ctx : StoreContext) (b : Browser)
    {events : List BrowserEvent} (h : ∀ e ∈ events, ¬ e.Orders) :
    (events.foldl (Browser.step ctx) b).isFavorite = b.isFavorite ∧
      (events.foldl (Browser.step ctx) b).settled.rollappInfos = b.settled.rollappInfos := by
  induction events generalizing b with
  | nil => exact ⟨rfl, rfl⟩
  | cons e events ih =>
    obtain ⟨he, hevents⟩ := List.forall_mem_cons.1 h
    obtain ⟨hfavorite, hinfos⟩ := Browser.step_of_not_orders ctx b he
    rw [List.foldl_cons, ← hfavorite, ← hinfos]
    exact ih _ hevents

/-! ## Dispatches that have gone on -/

def BrowserEvent.isResume : BrowserEvent → Bool
  | .resume => true
  | .dispatch _ | .storage _ => false

/-- From the `k`-th on, the dispatches that wait do not order the rollapps. -/
def Browser.OrdersOnlyBefore (b : Browser) (k : ℕ) : Prop :=
  ∀ p ∈ b.pending.drop k, p.rollappInfos = none

theorem Browser.OrdersOnlyBefore.push {k : ℕ} (h : b.OrdersOnlyBefore k) {p : RollappPatch}
    (hp : p.rollappInfos = none) : ∀ q ∈ (b.pending ++ [p]).drop k, q.rollappInfos = none := by
  intro q hq
  rw [List.drop_append] at hq
  rcases List.mem_append.1 hq with hq | hq
  · exact h q hq
  · rw [List.mem_singleton.1 (List.mem_of_mem_drop hq)]
    exact hp

/-- When a dispatch goes on, one less waits in front of the others. -/
theorem Browser.OrdersOnlyBefore.step {k : ℕ} (h : b.OrdersOnlyBefore k) {e : BrowserEvent}
    (he : ¬ e.Orders) :
    (b.step ctx e).OrdersOnlyBefore (k - if e.isResume then 1 else 0) := by
  cases e with
  | dispatch action =>
    cases action with
    | populateChainDataByPathname path =>
      show (b.dispatch ctx (.populateChainDataByPathname path)).OrdersOnlyBefore k
      simp only [Browser.dispatch]
      split_ifs
      · exact h.push (by rfl)
      · exact h.push (by rfl)
    | updateDenomsMetadata m => exact h.push (by rfl)
    | reOrderRollapps favorite => exact absurd ⟨favorite, rfl⟩ he
  | storage favoriteRollapps => exact h
  | resume =>
    simp only [Browser.step, Browser.resume, BrowserEvent.isResume, if_true]
    split
    · next hpending =>
      intro p hp
      rw [hpending] at hp
      exact absurd hp (by simp)
    · next newState pending hpending =>
      intro p hp
      refine h p ?_
      rw [hpending]
      cases k with
      | zero => exact List.mem_cons_of_mem _ hp
      | succ k => exact hp

theorem Browser.OrdersOnlyBefore.foldl (ctx : StoreContext) {k : ℕ} {events : List BrowserEvent}
    (h : b.OrdersOnlyBefore k) (hevents : ∀ e ∈ events, ¬ e.Orders) :
    (events.foldl (Browser.step ctx) b).OrdersOnlyBefore
      (k - events.countP BrowserEvent.isResume) := by
  induction events generalizing b k with
  | nil => exact h
  | cons e events ih =>
    obtain ⟨he, hrest⟩ := List.forall_mem_cons.1 hevents
    have hk : k - (e :: events).countP BrowserEvent.isResume =
        (k - if e.isResume then 1 else 0) - events.countP BrowserEvent.isResume := by
      rw [List.countP_cons]
      omega
    rw [List.foldl_cons, hk]
    exact ih (h.step he) hrest

/-- If none that waits orders the rollapps, then they are in their order now. -/
theorem Browser.OrdersOnlyBefore.settled (h : b.OrdersOnlyBefore 0) :
    b.settled.rollappInfos = b.state.rollappInfos := by
  have hpending : ∀ p ∈ b.pending, p.rollappInfos = none := h
  unfold Browser.settled
  generalize b.state = s
  generalize b.pending = pending at hpending
  induction pending generalizing s with
  | nil => rfl
  | cons p pending ih =>
    obtain ⟨hp, hrest⟩ := List.forall_mem_cons.1 hpending
    rw [List.foldl_cons, ih _ hrest, RollappState.merge, hp]
    rfl

/-- What a dispatch that orders the rollapps assigns, and the order that it makes. -/
theorem Browser.reOrderRollapps_spec (hsort : Sorts ctx.sorting)
    (hlocale : Consistent ctx.localeCompare) (h : b.Keeps infos)
    (favorite : Option (String × Bool)) :
    (∀ x ∈ infos, (b.dispatch ctx (.reOrderRollapps favorite)).isFavorite x.chainId =
      storeFavorite favorite b.favoriteRollapps x.chainId) ∧
    InOrder ctx.localeCompare (b.dispatch ctx (.reOrderRollapps favorite)).isFavorite
      (b.dispatch ctx (.reOrderRollapps favorite)).settled.rollappInfos := by
  constructor
  · intro x hx
    exact if_pos ⟨x, h.state.rollappInfos.mem_iff.2 hx, rfl⟩
  · simp only [Browser.dispatch]
    rw [Browser.settled_push]
    exact (hsort _ b.state.rollappInfos (consistent_compareFavorites hlocale _)).imp
      fun hle => compareFavorites_le_iff.1 hle

end

/-- **The rollapps of the store.**  In every interleaving of the halves of dispatches and of the
    changes of other tabs, the store has the rollapps it was made of, and selects none but them;
    after the last dispatch that orders them has gone on, they are in the order of the favorites
    that it read, and these are the ones that are shown.  It has gone on when more dispatches have
    than waited before it. -/
theorem store_rollapps (ctx : StoreContext) (hsort : Sorts ctx.sorting)
    (hlocale : Consistent ctx.localeCompare) (u : CaseMapping) (chainInfos : List ChainRow)
    (infos : List RollappObject)
    (hinfos : infos.map (RollappObject.info fun _ => false) = normalizeRollappsInfo u chainInfos)
    (path : String) (favoriteRollapps : String → Bool) (events : List BrowserEvent) :
    InStore u chainInfos
      ((Browser.run ctx infos path favoriteRollapps events).state.rollappInfos.map
        (RollappObject.info (Browser.run ctx infos path favoriteRollapps events).isFavorite)) ∧
    (∀ x ∈ (Browser.run ctx infos path favoriteRollapps events).state.selectedRollappInfo,
      x ∈ infos) ∧
    ∀ before favorite after,
      events = before ++ .dispatch (.reOrderRollapps favorite) :: after →
      (∀ e ∈ after, ¬ e.Orders) →
      (∀ x ∈ infos, (Browser.run ctx infos path favoriteRollapps events).isFavorite x.chainId =
        storeFavorite favorite (Browser.run ctx infos path favoriteRollapps before).favoriteRollapps
          x.chainId) ∧
      InOrder ctx.localeCompare (Browser.run ctx infos path favoriteRollapps events).isFavorite
        (Browser.run ctx infos path favoriteRollapps events).settled.rollappInfos ∧
      ((Browser.run ctx infos path favoriteRollapps before).pending.length <
          after.countP BrowserEvent.isResume →
        InOrder ctx.localeCompare (Browser.run ctx infos path favoriteRollapps events).isFavorite
          (Browser.run ctx infos path favoriteRollapps events).state.rollappInfos) := by
  have hkeeps := Browser.keeps_run ctx infos path favoriteRollapps events
  refine ⟨?_, hkeeps.state.selected, ?_⟩
  · rw [InStore, List.map_map, ← hinfos]
    exact hkeeps.state.rollappInfos.map _
  · rintro before favorite after rfl hafter
    have hbefore := Browser.keeps_run ctx infos path favoriteRollapps before
    have hrun : Browser.run ctx infos path favoriteRollapps
        (before ++ .dispatch (.reOrderRollapps favorite) :: after) =
        after.foldl (Browser.step ctx) ((Browser.run ctx infos path favoriteRollapps
          before).dispatch ctx (.reOrderRollapps favorite)) := by
      rw [Browser.run, List.foldl_append]
      rfl
    obtain ⟨hfavorite, hsettled⟩ := Browser.foldl_of_not_orders ctx
      ((Browser.run ctx infos path favoriteRollapps before).dispatch ctx
        (.reOrderRollapps favorite)) hafter
    obtain ⟨hassigned, horder⟩ := Browser.reOrderRollapps_spec hsort hlocale hbefore favorite
    rw [hrun, hfavorite, hsettled]
    refine ⟨hassigned, horder, fun hgone => ?_⟩
    have hbehind : ((Browser.run ctx infos path favoriteRollapps before).dispatch ctx
        (.reOrderRollapps favorite)).OrdersOnlyBefore
          ((Browser.run ctx infos path favoriteRollapps before).pending.length + 1) := by
      intro p hp
      rw [Browser.dispatch, List.drop_eq_nil_of_le (by rw [List.length_append]; exact le_rfl)] at hp
      cases hp
    have hnone := hbehind.foldl ctx hafter
    rw [Nat.sub_eq_zero_of_le hgone] at hnone
    rw [← hnone.settled, hsettled]
    exact horder

/-! ## What is displayed -/

/-- What the store stands for: the path of the rollapp that is displayed, and its metadata if it
    has been got. -/
structure RollappView where
  rollappPath : String
  denomsMetadata : Option DenomsMetadataMap

/-- Another rollapp has no metadata yet; nor has a path without a rollapp. -/
def RollappView.next (infos : List RollappObject) (v : RollappView) : StoreAction → RollappView
  | .populateChainDataByPathname rollappPath =>
    if rollappPath = v.rollappPath ∧ ∃ x ∈ infos, x.path = rollappPath then v
    else ⟨rollappPath, none⟩
  | .updateDenomsMetadata denomsMetadata => ⟨v.rollappPath, some denomsMetadata⟩
  | .reOrderRollapps _ => v

def RollappView.after (infos : List RollappObject) (v : RollappView) :
    List BrowserEvent → RollappView
  | [] => v
  | .dispatch action :: events => (v.next infos action).after infos events
  | _ :: events => v.after infos events

/-- The state shows what it stands for. -/
structure RollappState.Represents (infos : List RollappObject) (s : RollappState)
    (v : RollappView) : Prop where
  selected : ∀ x ∈ s.selectedRollappInfo, x ∈ infos ∧ x.path = v.rollappPath
  unselected : s.selectedRollappInfo = none → ∀ x ∈ infos, x.path ≠ v.rollappPath
  rpcService : s.rpcService = selectedRpcService s.selectedRollappInfo
  denomsMetadata : s.denomsMetadata = v.denomsMetadata.getD ∅
  hasGottenDenomsMetadata : s.hasGottenDenomsMetadata = v.denomsMetadata.isSome

/-- The change is one of the order at most. -/
def RollappPatch.OnlyOrders (p : RollappPatch) : Prop :=
  p = { RollappPatch.empty with rollappInfos := p.rollappInfos }

/-- An action other than the order of the mount is dispatched only while no other change than one
    of the order is under way. -/
def Browser.OneAtATime (ctx : StoreContext) : Browser → List BrowserEvent → Prop
  | _, [] => True
  | b, e :: events => (∀ action, e = .dispatch action → action = .reOrderRollapps none ∨
      ∀ p ∈ b.pending, p.OnlyOrders) ∧ Browser.OneAtATime ctx (b.step ctx e) events

section

variable {ctx : StoreContext} {b : Browser} {infos : List RollappObject} {v : RollappView}

theorem RollappState.merge_of_onlyOrders {s : RollappState} {p : RollappPatch}
    (h : p.OnlyOrders) :
    s.merge p = { s with rollappInfos := p.rollappInfos.getD s.rollappInfos } := by
  rw [h]
  rfl

/-- The order does not change what is represented. -/
theorem RollappState.Represents.of_selected {s s' : RollappState} (h : s.Represents infos v)
    (hselected : s'.selectedRollappInfo = s.selectedRollappInfo)
    (hservice : s'.rpcService = s.rpcService) (hdenoms : s'.denomsMetadata = s.denomsMetadata)
    (hgotten : s'.hasGottenDenomsMetadata = s.hasGottenDenomsMetadata) :
    s'.Represents infos v where
  selected := hselected ▸ h.selected
  unselected := hselected ▸ h.unselected
  rpcService := by rw [hservice, hselected, h.rpcService]
  denomsMetadata := hdenoms.trans h.denomsMetadata
  hasGottenDenomsMetadata := hgotten.trans h.hasGottenDenomsMetadata

theorem Browser.settled_selected (h : ∀ p ∈ b.pending, p.OnlyOrders) :
    b.settled.selectedRollappInfo = b.state.selectedRollappInfo := by
  unfold Browser.settled
  generalize b.state = s
  generalize b.pending = pending at h
  induction pending generalizing s with
  | nil => rfl
  | cons p pending ih =>
    obtain ⟨hp, hpending⟩ := List.forall_mem_cons.1 h
    rw [List.foldl_cons, ih _ hpending, RollappState.merge_of_onlyOrders hp]

/-- The first rollapp with a path. -/
theorem getSelected_spec {rollappInfos : List RollappObject} (h : rollappInfos.Perm infos)
    (path : String) :
    (∀ x ∈ getSelectedRollappInfoByPathname rollappInfos path, x ∈ infos ∧ x.path = path) ∧
    (getSelectedRollappInfoByPathname rollappInfos path = none → ∀ x ∈ infos, x.path ≠ path) := by
  constructor
  · intro x hx
    have hpath := List.find?_some hx
    exact ⟨h.mem_iff.1 (List.mem_of_find?_eq_some hx), of_decide_eq_true hpath⟩
  · intro hnone x hx he
    have hnot := List.find?_eq_none.1 hnone x (h.mem_iff.2 hx)
    exact hnot (decide_eq_true he)

/-- The rollapp that is selected anew is the one that is selected. -/
theorem reselect_getD (hchainIds : (infos.map RollappObject.chainId).Nodup)
    {rollappInfos : List RollappObject} (h : rollappInfos.Perm infos)
    {selected : Option RollappObject} (hselected : ∀ x ∈ selected, x ∈ infos)
    (favorite : Option (String × Bool)) :
    (reselect favorite selected rollappInfos).getD selected = selected := by
  unfold reselect
  split
  · rfl
  · split_ifs with hsame
    · obtain ⟨x, rfl, rfl⟩ := Option.map_eq_some_iff.1 hsame
      have hx := hselected x rfl
      show rollappInfos.find? _ = some x
      cases hfind : rollappInfos.find? fun i => i.chainId = x.chainId with
      | none =>
        have hnot := List.find?_eq_none.1 hfind x (h.mem_iff.2 hx)
        exact absurd (decide_eq_true rfl) hnot
      | some y =>
        have hy := List.find?_some hfind
        have hm : y ∈ infos := h.mem_iff.1 (List.mem_of_find?_eq_some hfind)
        rw [List.inj_on_of_nodup_map hchainIds hm hx (of_decide_eq_true hy)]
    · rfl

/-- **One dispatch** changes what is represented as it should. -/
theorem Browser.represents_dispatch (hchainIds : (infos.map RollappObject.chainId).Nodup)
    (hkeeps : b.Keeps infos) (h : b.settled.Represents infos v) {action : StoreAction}
    (halone : action = .reOrderRollapps none ∨ ∀ p ∈ b.pending, p.OnlyOrders) :
    (b.dispatch ctx action).settled.Represents infos (v.next infos action) := by
  cases action with
  | populateChainDataByPathname path =>
    replace halone := halone.resolve_left nofun
    have hselected := Browser.settled_selected halone
    simp only [Browser.dispatch]
    split_ifs with hsame
    · rw [Browser.settled_push]
      obtain ⟨x, hx, rfl⟩ := Option.map_eq_some_iff.1 hsame
      obtain ⟨hm, hpath⟩ := h.selected x (hselected ▸ hx)
      rw [RollappView.next, if_pos ⟨hpath, x, hm, rfl⟩]
      exact h
    · rw [Browser.settled_push]
      have hnext : v.next infos (.populateChainDataByPathname path) = ⟨path, none⟩ := by
        refine if_neg ?_
        rintro ⟨rfl, x, hx, hpath⟩
        cases hsel : b.settled.selectedRollappInfo with
        | none => exact h.unselected hsel x hx hpath
        | some y =>
          refine hsame ?_
          rw [← hselected, hsel, Option.map_some, (h.selected y hsel).2]
      obtain ⟨hfound, hmissing⟩ := getSelected_spec hkeeps.state.rollappInfos path
      rw [hnext]
      exact ⟨hfound, hmissing, rfl, rfl, rfl⟩
  | updateDenomsMetadata m =>
    simp only [Browser.dispatch]
    rw [Browser.settled_push]
    exact ⟨h.selected, h.unselected, h.rpcService, rfl, rfl⟩
  | reOrderRollapps favorite =>
    simp only [Browser.dispatch]
    rw [Browser.settled_push]
    have hsorted := fun compare =>
      (ctx.sorting.perm compare b.state.rollappInfos).trans hkeeps.state.rollappInfos
    have hsame : ∀ l : List RollappObject, l.Perm infos →
        (reselect favorite b.state.selectedRollappInfo l).getD b.settled.selectedRollappInfo =
          b.settled.selectedRollappInfo := by
      intro l hl
      cases favorite with
      | none => rfl
      | some change =>
        rw [Browser.settled_selected (halone.resolve_left nofun)]
        exact reselect_getD hchainIds hl hkeeps.state.selected _
    exact h.of_selected (hsame _ (hsorted _)) rfl rfl rfl

theorem Browser.represents_foldl (hchainIds : (infos.map RollappObject.chainId).Nodup)
    {events : List BrowserEvent} (hkeeps : b.Keeps infos) (h : b.settled.Represents infos v)
    (hevents : b.OneAtATime ctx events) :
    (events.foldl (Browser.step ctx) b).settled.Represents infos (v.after infos events) := by
  induction events generalizing b v with
  | nil => exact h
  | cons e events ih =>
    obtain ⟨he, hevents⟩ := hevents
    cases e with
    | dispatch action =>
      exact ih (hkeeps.dispatch action)
        (Browser.represents_dispatch hchainIds hkeeps h (he action rfl)) hevents
    | resume =>
      refine ih hkeeps.resume ?_ hevents
      rw [Browser.step, Browser.settled_resume]
      exact h
    | storage favoriteRollapps => exact ih ⟨hkeeps.state, hkeeps.pending⟩ h hevents

end

/-- **What is displayed.**  If one change of the selection or of the metadata is under way at a
    time, the store shows what was navigated to last, with the service of that rollapp and the
    metadata that was got since, once all dispatches have gone on. -/
theorem store_view (ctx : StoreContext) (infos : List RollappObject)
    (hchainIds : (infos.map RollappObject.chainId).Nodup) (path : String)
    (favoriteRollapps : String → Bool) (events : List BrowserEvent)
    (hevents : (Browser.run ctx infos path favoriteRollapps []).OneAtATime ctx events)
    (hdone : (Browser.run ctx infos path favoriteRollapps events).pending = []) :
    (Browser.run ctx infos path favoriteRollapps events).state.Represents infos
      (RollappView.after infos ⟨path, none⟩ events) := by
  obtain ⟨hfound, hmissing⟩ := getSelected_spec (List.Perm.refl infos) path
  have hinitial : (Browser.run ctx infos path favoriteRollapps []).settled.Represents infos
      ⟨path, none⟩ := ⟨hfound, hmissing, rfl, rfl, rfl⟩
  have h := Browser.represents_foldl hchainIds
    (Browser.keeps_run ctx infos path favoriteRollapps []) hinitial hevents
  have hsettled : (Browser.run ctx infos path favoriteRollapps events).settled =
      (Browser.run ctx infos path favoriteRollapps events).state := by
    rw [Browser.settled, hdone]
    rfl
  rw [← hsettled]
  exact h

/-! ## Two rollapps -/

/-- The code point of the first character. -/
def firstCodePoint (s : String) : ℤ := s.toList.head?.elim 0 fun c => c.toNat

/-- The comparison of names that differ in their first characters. -/
def compareFirst (a b : String) : ℤ := firstCodePoint a - firstCodePoint b

theorem consistent_compareFirst : Consistent compareFirst where
  swap a b := by
    unfold compareFirst
    omega
  trans a b c hab hbc := by
    unfold compareFirst at *
    omega

/-- Sorting by insertion. -/
def insertionSorting : Sorting where
  sort compare l := l.insertionSort fun a b => compare a b ≤ 0
  perm _ l := List.perm_insertionSort _ l

theorem sorts_insertionSorting : Sorts insertionSorting := by
  intro α compare l h
  have htotal : Std.Total fun a b : α => compare a b ≤ 0 := by
    refine ⟨fun a b => ?_⟩
    by_contra hnot
    rw [not_or, not_le, not_le] at hnot
    have hlt := (h.swap b a).2 hnot.1
    omega
  have htrans : IsTrans α fun a b => compare a b ≤ 0 := ⟨h.trans⟩
  exact List.pairwise_insertionSort _ l

def sampleStoreContext : StoreContext := ⟨insertionSorting, compareFirst⟩

def sampleRollapps : List RollappObject :=
  [⟨"/nim", "nim", "nim", 0, ["https://be.nim"]⟩, ⟨"/dym", "dym", "dym", 0, []⟩]

/-- The rollapps are ordered when the page is mounted. -/
theorem store_rollapps_mounted : InOrder compareFirst
    (Browser.run sampleStoreContext sampleRollapps "/nim" (fun id => id = "nim")
      [.dispatch (.reOrderRollapps none), .resume]).isFavorite
    (Browser.run sampleStoreContext sampleRollapps "/nim" (fun id => id = "nim")
      [.dispatch (.reOrderRollapps none), .resume]).state.rollappInfos :=
  ((store_rollapps sampleStoreContext sorts_insertionSorting consistent_compareFirst default
    [namedChain "nim", namedChain "dym"] sampleRollapps rfl "/nim" (fun id => id = "nim")
    [.dispatch (.reOrderRollapps none), .resume]).2.2 [] none [.resume] rfl (by
      rintro e he ⟨favorite, rfl⟩
      cases List.mem_singleton.1 he)).2.2 (by decide)

/-- Another rollapp is displayed, which has no service. -/
theorem store_view_navigated : RollappState.Represents sampleRollapps
    (Browser.run sampleStoreContext sampleRollapps "/nim" (fun _ => false)
      [.dispatch (.populateChainDataByPathname "/dym"), .dispatch (.reOrderRollapps none), .resume,
        .resume]).state ⟨"/dym", none⟩ := by
  refine store_view sampleStoreContext sampleRollapps (by decide) "/nim" (fun _ => false)
    [.dispatch (.populateChainDataByPathname "/dym"), .dispatch (.reOrderRollapps none), .resume,
      .resume] ⟨?_, ?_, ?_, ?_, trivial⟩ rfl
  · exact fun _ _ => .inr nofun
  · rintro action ⟨⟩
    exact .inl rfl
  · rintro action ⟨⟩
  · rintro action ⟨⟩

end RollappExplorer
