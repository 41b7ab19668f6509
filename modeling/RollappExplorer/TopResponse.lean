/-
  The response that `GetTop` chooses (`indexer_health_check.go`).

  * `NotWorse`: the order of the responses; `NearTop`: the limits of a preference;
  * `IsTop`: the sorted responses, the first of them, and the one to choose;
  * `getTop_isTop`: `getTop` chooses it if no higher block is older;
  * `fallBehind_int64`: the limits are compared without overflow.
-/
import Mathlib.Algebra.Group.Int.Defs
import RollappExplorer.HealthCheck

namespace RollappExplorer

open Go

/-! ## What it is for -/

/-- `l` is higher than `r`, or as high and not slower. -/
def ResponseByJsonRpcUrl.NotWorse (l r : ResponseByJsonRpcUrl) : Prop :=
  r.res.latestBlock < l.res.latestBlock ∨
    l.res.latestBlock = r.res.latestBlock ∧ l.duration ≤ r.duration

/-- `l` is higher than `r`, or as high and faster. -/
def ResponseByJsonRpcUrl.Better (l r : ResponseByJsonRpcUrl) : Prop :=
  r.res.latestBlock < l.res.latestBlock ∨
    l.res.latestBlock = r.res.latestBlock ∧ l.duration < r.duration

/-- The URL is self-maintained. -/
def ResponseByJsonRpcUrl.SelfMaintained (r : ResponseByJsonRpcUrl) : Prop :=
  contains r.url selfDomain = true

/-- `r` is behind the first response, but not far. -/
structure NearTop (top r : ResponseByJsonRpcUrl) : Prop where
  height : top.res.latestBlock - r.res.latestBlock ≤ maxSelfMaintainedBlocksFallBehind
  epoch : top.res.latestBlockTimeEpochUTC - r.res.latestBlockTimeEpochUTC ≤
    maxSelfMaintainedEpochsFallBehind

/-- The sorted responses begin with `top`, and `best` is the one to choose. -/
structure IsTop (s sorted : List ResponseByJsonRpcUrl) (top best : ResponseByJsonRpcUrl) :
    Prop where
  perm : sorted.Perm s
  ordered : sorted.Pairwise ResponseByJsonRpcUrl.NotWorse
  head : sorted.head? = some top
  selfMaintainedTop : top.SelfMaintained → best = top
  preferred : ¬ top.SelfMaintained → (∃ r ∈ s, r.SelfMaintained ∧ NearTop top r) →
    best ∈ s ∧ best.SelfMaintained ∧ NearTop top best ∧
      ∀ r ∈ s, r.SelfMaintained → ¬ r.Better best
  notPreferred : ¬ top.SelfMaintained → (¬ ∃ r ∈ s, r.SelfMaintained ∧ NearTop top r) →
    best = top

/-! ## The first of a kind -/

/-- The first of the elements that `p` holds of comes before all others that it holds of. -/
theorem rel_of_filter_eq_cons {α : Type} {r : α → α → Prop} {p : α → Bool} {l rest : List α}
    {a b : α} (hl : l.Pairwise r) (hf : l.filter p = a :: rest) (hrefl : r a a) (hb : b ∈ l)
    (hp : p b = true) : r a b := by
  have hordered : (a :: rest).Pairwise r := hf ▸ hl.filter p
  have hm : b ∈ a :: rest := hf ▸ List.mem_filter.2 ⟨hb, hp⟩
  rcases List.mem_cons.1 hm with rfl | hm
  · exact hrefl
  · exact List.rel_of_pairwise_cons hordered hm

section
variable {S : SortFunc} {s rest : List ResponseByJsonRpcUrl} {top l r : ResponseByJsonRpcUrl}

theorem ResponseByJsonRpcUrl.notWorse_refl (r : ResponseByJsonRpcUrl) : r.NotWorse r :=
  .inr ⟨rfl, le_rfl⟩

theorem ResponseByJsonRpcUrl.NotWorse.not_better (h : l.NotWorse r) : ¬ r.Better l := by
  unfold NotWorse at h
  unfold Better
  omega

theorem ResponseByJsonRpcUrl.NotWorse.height_le (h : l.NotWorse r) :
    r.res.latestBlock ≤ l.res.latestBlock := by
  unfold NotWorse at h
  omega

theorem SortFunc.notWorse (S : SortFunc) (s : List ResponseByJsonRpcUrl) :
    (S.sort s).Pairwise ResponseByJsonRpcUrl.NotWorse :=
  (S.sorted s).imp fun h => (ResponseByJsonRpcUrl.cmp_nonpos_iff _ _).1 h

/-- A response that is not worse than a near one is near, if it is not older. -/
theorem NearTop.of_notWorse (h : NearTop top r) (hle : l.NotWorse r)
    (htime : r.res.latestBlock ≤ l.res.latestBlock →
      r.res.latestBlockTimeEpochUTC ≤ l.res.latestBlockTimeEpochUTC) : NearTop top l := by
  have hheight := hle.height_le
  have hepoch := htime hheight
  exact ⟨(Int.sub_le_sub_left hheight _).trans h.height,
    (Int.sub_le_sub_left hepoch _).trans h.epoch⟩

/-- The first response is chosen if no other is self-maintained. -/
theorem topOfSorted_of_nil (hf : (rest.filter fun res => contains res.url selfDomain) = []) :
    topOfSorted (top :: rest) = some top := by
  simp only [topOfSorted]
  split_ifs
  · simp only [hf]
  · rfl

/-- The first self-maintained response is chosen if it is near. -/
theorem topOfSorted_of_cons {first : ResponseByJsonRpcUrl} {others : List ResponseByJsonRpcUrl}
    (htop : ¬ top.SelfMaintained)
    (hf : (rest.filter fun res => contains res.url selfDomain) = first :: others) :
    topOfSorted (top :: rest) =
      if top.res.latestBlock - first.res.latestBlock ≤ maxSelfMaintainedBlocksFallBehind ∧
          top.res.latestBlockTimeEpochUTC - first.res.latestBlockTimeEpochUTC ≤
            maxSelfMaintainedEpochsFallBehind then some first
      else some top := by
  have hlength : 1 < (top :: rest).length := by
    cases rest with
    | nil => cases hf
    | cons => simp
  simp only [topOfSorted]
  rw [if_pos ⟨hlength, htop⟩]
  simp only [hf]

theorem topOfSorted_selfMaintained (htop : top.SelfMaintained) :
    topOfSorted (top :: rest) = some top :=
  if_neg fun h => h.2 htop

end

/-- **The choice.** The responses are sorted, and the best one is chosen, if no higher block is
    older.  Heights and times are those of validated responses, at least 1, the differences of which
    do not overflow (`fallBehind_int64`). -/
theorem getTop_isTop (S : SortFunc) (s : List ResponseByJsonRpcUrl) (hs : s ≠ [])
    (htime : ∀ l ∈ s, ∀ r ∈ s, r.res.latestBlock ≤ l.res.latestBlock →
      r.res.latestBlockTimeEpochUTC ≤ l.res.latestBlockTimeEpochUTC) :
    ∃ top best sorted, getTop S s = (some best, sorted) ∧ IsTop s sorted top best := by
  have hgetTop : getTop S s = (topOfSorted (S.sort s), S.sort s) :=
    if_neg fun h => hs (List.length_eq_zero_iff.1 h)
  have hperm := S.perm s
  have hordered := S.notWorse s
  cases hsorted : S.sort s with
  | nil => exact absurd (hsorted ▸ hperm).nil_eq.symm hs
  | cons top rest =>
    rw [hsorted] at hgetTop hperm hordered
    have hmem : ∀ r, r ∈ s ↔ r = top ∨ r ∈ rest := fun r =>
      hperm.mem_iff.symm.trans List.mem_cons
    by_cases htop : top.SelfMaintained
    · rw [topOfSorted_selfMaintained htop] at hgetTop
      exact ⟨top, top, _, hgetTop, hperm, hordered, rfl, fun _ => rfl, fun h => absurd htop h,
        fun h => absurd htop h⟩
    -- a near response that is self-maintained is in the tail
    have htail : ∀ r ∈ s, r.SelfMaintained → r ∈ rest := fun r hr hself =>
      ((hmem r).1 hr).resolve_left fun he => htop (he ▸ hself)
    cases hf : rest.filter fun res => contains res.url selfDomain with
    | nil =>
      rw [topOfSorted_of_nil hf] at hgetTop
      refine ⟨top, top, _, hgetTop, hperm, hordered, rfl, fun _ => rfl, ?_, fun _ _ => rfl⟩
      rintro - ⟨r, hr, hself, -⟩
      exact absurd hself (List.filter_eq_nil_iff.1 hf r (htail r hr hself))
    | cons first others =>
      rw [topOfSorted_of_cons htop hf] at hgetTop
      obtain ⟨hfirst, hfirstSelf⟩ := List.mem_filter.1 (hf ▸ List.mem_cons_self :
        first ∈ rest.filter fun res => contains res.url selfDomain)
      have hfirstMem : first ∈ s := (hmem first).2 (.inr hfirst)
      have hbest : ∀ r ∈ s, r.SelfMaintained → first.NotWorse r := fun r hr hself =>
        rel_of_filter_eq_cons (List.pairwise_cons.1 hordered).2 hf first.notWorse_refl
          (htail r hr hself) hself
      by_cases hnear : NearTop top first
      · rw [if_pos ⟨hnear.height, hnear.epoch⟩] at hgetTop
        exact ⟨top, first, _, hgetTop, hperm, hordered, rfl, fun h => absurd h htop,
          fun _ _ => ⟨hfirstMem, hfirstSelf, hnear, fun r hr hself =>
            (hbest r hr hself).not_better⟩,
          fun _ h => absurd ⟨first, hfirstMem, hfirstSelf, hnear⟩ h⟩
      · -- then no self-maintained response is near: none is higher, nor newer
        rw [if_neg fun h => hnear ⟨h.1, h.2⟩] at hgetTop
        refine ⟨top, top, _, hgetTop, hperm, hordered, rfl, fun _ => rfl, ?_, fun _ _ => rfl⟩
        rintro - ⟨r, hr, hself, hr'⟩
        exact absurd (hr'.of_notWorse (hbest r hr hself) (htime first hfirstMem r hr)) hnear

/-- The self-maintained URL is chosen although it is 5 blocks behind. -/
theorem getTop_fewBehind : ∃ top best sorted,
    getTop insertionSortFunc (responsesBehind 5) = (some best, sorted) ∧
      IsTop (responsesBehind 5) sorted top best :=
  getTop_isTop insertionSortFunc (responsesBehind 5) (by decide) fun l hl r hr _ => by
    have htime : ∀ r ∈ responsesBehind 5, r.res.latestBlockTimeEpochUTC = 1720000000 := by
      decide
    rw [htime l hl, htime r hr]

/-! ## Overflow -/

/-- **The limits are compared without overflow**, as the responses are validated. -/
theorem fallBehind_int64 {l r : ResponseBeGetChainInfo} (hl : l.validateBasic = .ok ())
    (hr : r.validateBasic = .ok ()) (hl' : l.latestBlock < 2 ^ 63) (hr' : r.latestBlock < 2 ^ 63)
    (hlt : l.latestBlockTimeEpochUTC < 2 ^ 63) (hrt : r.latestBlockTimeEpochUTC < 2 ^ 63) :
    Int.bmod (l.latestBlock - r.latestBlock) (2 ^ 64) = l.latestBlock - r.latestBlock ∧
      Int.bmod (l.latestBlockTimeEpochUTC - r.latestBlockTimeEpochUTC) (2 ^ 64) =
        l.latestBlockTimeEpochUTC - r.latestBlockTimeEpochUTC := by
  have hpos : ∀ {r : ResponseBeGetChainInfo}, r.validateBasic = .ok () →
      1 ≤ r.latestBlock ∧ 1 ≤ r.latestBlockTimeEpochUTC := by
    intro r h
    simp only [ResponseBeGetChainInfo.validateBasic, bind_unit_ok_iff, failIf_ok_iff] at h
    omega
  obtain ⟨hlb, hlb'⟩ := hpos hl
  obtain ⟨hrb, hrb'⟩ := hpos hr
  constructor <;> exact Int.bmod_eq_of_le (by omega) (by omega)

end RollappExplorer
