/-
  The next range of blocks to index (`utils/number.go`, `determineBlockRangeToIndex`).

  * `getClosesRange`: the first run of consecutive numbers that are not excluded;
    `firstRun_spec`: its description;
  * `getClosesRangeWithExtensible`: the same over windows, until one has a result;
  * `wp_determineBlockRangeToIndex`: it never panics, and the range it returns starts
    right after failed heights only.
-/
import RollappExplorer.Environment

namespace RollappExplorer

open Go Effect

/-! ## The first run -/

/-- The end of the run of consecutive numbers that begins with `last`. -/
def runEnd (last : ℤ) : List ℤ → ℤ
  | [] => last
  | n :: input => if n - last > 1 then last else runEnd n input

/-- The result of `GetClosesRange`, after its checks of the range: `hasResult`, `from`
    and `to`.  The map of the numbers that are not excluded is ranged over and sorted. -/
def firstRun (f t : ℤ) (excludeNumbers : List ℤ) : Bool × ℤ × ℤ :=
  match (numbers f t).filter fun n => n ∉ excludeNumbers with
  | [] => (false, 0, 0)
  | n :: input => (decide (n > 0 ∧ n ≤ runEnd n input), n, runEnd n input)

/-- `GetClosesRange` -/
def getClosesRange {S : Sig} (f t : ℤ) (excludeNumbers : List ℤ) : Prog S (Bool × ℤ × ℤ) :=
  if f > t then .panic s!"input: from must <= to: {f} & {t}"
  else if f < 1 ∨ t < 1 then .panic s!"input: must be >=1: {f} & {t}"
  else if excludeNumbers.length = 0 then .ret (true, f, t)
  else .ret (firstRun f t excludeNumbers)

/-- The loop that extends the range, window by window; every iteration begins above the
    last one, so `fuel` numbers up to the limit suffice. -/
def extendRange {S : Sig} (getExcludeNumbers : ℤ → ℤ → Prog S (Except Error (List ℤ)))
    (upTo : ℤ) (size : ℕ) : ℕ → ℤ → ℤ → Prog S (Except Error (Bool × ℤ × ℤ))
  | 0, _, _ => .ret (.ok (false, 0, 0))
  | fuel + 1, f, t =>
    if f ≤ upTo then
      let f' := t + 1
      let t' := min upTo (f' + size - 1)
      if f' > upTo ∨ f' > t' then .ret (.ok (false, 0, 0))
      else do
        match ← getExcludeNumbers f' t' with
        | .error err => return .error err
        | .ok excludeNumbers =>
          let (hasResult, n, m) ← getClosesRange f' t' excludeNumbers
          if hasResult then return .ok (hasResult, n, m)
          else extendRange getExcludeNumbers upTo size fuel f' t'
    else .ret (.ok (false, 0, 0))

/-- `GetClosesRangeWithExtensible` -/
def getClosesRangeWithExtensible {S : Sig} (f t : ℤ)
    (getExcludeNumbers : ℤ → ℤ → Prog S (Except Error (List ℤ))) (upTo : ℤ) (size : ℕ) :
    Prog S (Except Error (Bool × ℤ × ℤ)) :=
  if f > t then .panic s!"input: from must <= to: {f} & {t}"
  else if f < 1 ∨ t < 1 then .panic s!"input: must be >=1: {f} & {t}"
  else do
    match ← getExcludeNumbers f t with
    | .error err => return .error err
    | .ok excludeNumbers =>
      let (hasResult, n, m) ← getClosesRange f t excludeNumbers
      if hasResult then return .ok (hasResult, n, m)
      else if upTo < 1 ∨ size < 1 then return .ok (hasResult, n, m)
      else extendRange getExcludeNumbers upTo size (upTo - t + 1).toNat f t

/-! ## The range of an indexer -/

/-- `GetFailedBlocksInRange` -/
def getFailedBlocksInRange (f t : ℤ) : Prog sig (Except Error (List ℤ)) := do
  match ← perform (.selectFailedBlocksInRange f t) with
  | .error err => return .error (wrap err "failed to get failed block")
  | .ok blocksHeight => return .ok blocksHeight

/-- `determineBlockRangeToIndex`: `anyBlock`, `from` and `to`. -/
def determineBlockRangeToIndex (latestIndexedBlock upstreamRpcLatestBlock : ℤ) :
    Prog sig (Except Error (Bool × ℤ × ℤ)) :=
  if latestIndexedBlock < 0 ∨ latestIndexedBlock > upstreamRpcLatestBlock then
    .panic s!"invalid input param {latestIndexedBlock}, {upstreamRpcLatestBlock}"
  else
    let f := latestIndexedBlock + 1
    let t := min upstreamRpcLatestBlock (f + maximumNumberOfBlocksToIndexPerBatch - 1)
    getClosesRangeWithExtensible f t getFailedBlocksInRange upstreamRpcLatestBlock
      maximumNumberOfBlocksToIndexPerBatch

/-! ## The first run is a gap -/

theorem mem_numbers {f t n : ℤ} : n ∈ numbers f t ↔ f ≤ n ∧ n ≤ t := by
  simp only [numbers, List.mem_map, List.mem_range]
  constructor
  · rintro ⟨i, hi, rfl⟩
    omega
  · rintro ⟨hf, ht⟩
    exact ⟨(n - f).toNat, by omega, by omega⟩

theorem pairwise_numbers (f t : ℤ) : (numbers f t).Pairwise (· < ·) := by
  rw [numbers, List.pairwise_map]
  exact List.pairwise_lt_range.imp fun h => by omega

/-- The run that begins with `last` is consecutive in an ascending list. -/
theorem runEnd_spec {last : ℤ} {input : List ℤ} (h : (last :: input).Pairwise (· < ·)) :
    last ≤ runEnd last input ∧ (∀ n, last ≤ n → n ≤ runEnd last input → n ∈ last :: input) ∧
      runEnd last input + 1 ∉ last :: input := by
  induction input generalizing last with
  | nil =>
    refine ⟨le_rfl, fun n h₁ h₂ => ?_, ?_⟩
    · exact List.mem_singleton.2 (le_antisymm h₂ h₁)
    · intro hmem
      have := List.mem_singleton.1 hmem
      rw [runEnd] at this
      omega
  | cons m input ih =>
    have hlt := (List.pairwise_cons.1 h).1
    have htail := (List.pairwise_cons.1 h).2
    have hm : last < m := hlt m (by simp)
    unfold runEnd
    split_ifs with hgap
    · refine ⟨le_rfl, fun n h₁ h₂ => ?_, fun hmem => ?_⟩
      · rw [le_antisymm h₂ h₁]
        exact List.mem_cons_self
      · rcases List.mem_cons.1 hmem with he | hmem
        · omega
        · rcases List.mem_cons.1 hmem with he | hmem
          · omega
          · have := (List.pairwise_cons.1 htail).1 _ hmem
            omega
    · obtain ⟨hle, hall, hend⟩ := ih htail
      refine ⟨by omega, fun n h₁ h₂ => ?_, fun hmem => ?_⟩
      · by_cases hn : n = last
        · rw [hn]
          exact List.mem_cons_self
        · exact List.mem_cons_of_mem _ (hall n (by omega) h₂)
      · rcases List.mem_cons.1 hmem with he | hmem
        · omega
        · exact hend hmem

/-- The first gap of the excluded numbers `E` in `[f, t]`. -/
structure FirstGap (f t : ℤ) (E : Set ℤ) (n m : ℤ) : Prop where
  le : f ≤ n ∧ n ≤ m ∧ m ≤ t
  before : ∀ k, f ≤ k → k < n → k ∈ E
  free : ∀ k, n ≤ k → k ≤ m → k ∉ E
  maximal : m = t ∨ m + 1 ∈ E

theorem firstRun_spec {f t : ℤ} {ex : List ℤ} (hf : 1 ≤ f) :
    ((firstRun f t ex).1 = true ∧
        FirstGap f t {k | k ∈ ex} (firstRun f t ex).2.1 (firstRun f t ex).2.2) ∨
      (firstRun f t ex = (false, 0, 0) ∧ ∀ k, f ≤ k → k ≤ t → k ∈ ex) := by
  have hmem : ∀ k, k ∈ (numbers f t).filter (fun n => n ∉ ex) ↔ (f ≤ k ∧ k ≤ t) ∧ k ∉ ex := by
    intro k
    rw [List.mem_filter, mem_numbers, decide_eq_true_iff]
  have hsorted := (pairwise_numbers f t).filter fun n => n ∉ ex
  unfold firstRun
  cases hl : (numbers f t).filter fun n => n ∉ ex with
  | nil =>
    refine Or.inr ⟨rfl, fun k h₁ h₂ => ?_⟩
    by_contra hk
    have hk' := (hmem k).2 ⟨⟨h₁, h₂⟩, hk⟩
    rw [hl] at hk'
    cases hk'
  | cons n input =>
    rw [hl] at hsorted hmem
    obtain ⟨hle, hall, hend⟩ := runEnd_spec hsorted
    have hn := (hmem n).1 List.mem_cons_self
    have hm := (hmem _).1 (hall _ hle le_rfl)
    have hgap : FirstGap f t {k | k ∈ ex} n (runEnd n input) := by
      refine ⟨⟨hn.1.1, hle, hm.1.2⟩, fun k h₁ h₂ => ?_, fun k h₁ h₂ => ?_, ?_⟩
      · -- the head of an ascending list is its least element
        by_contra hk
        have hle' : k ≤ t := by omega
        rcases List.mem_cons.1 ((hmem k).2 ⟨⟨h₁, hle'⟩, hk⟩) with he | hk'
        · exact absurd h₂ (by omega)
        · exact absurd ((List.pairwise_cons.1 hsorted).1 k hk') (by omega)
      · exact ((hmem k).1 (hall k h₁ h₂)).2
      · by_cases ht : runEnd n input = t
        · exact Or.inl ht
        · refine Or.inr ?_
          by_contra hk
          exact hend ((hmem _).2 ⟨⟨by omega, by omega⟩, hk⟩)
    have hpos : n > 0 ∧ n ≤ runEnd n input := ⟨by omega, hle⟩
    exact Or.inl ⟨decide_eq_true hpos, hgap⟩

/-- A result of `GetClosesRange` for the excluded numbers `E`. -/
def IsFirstGap (f t : ℤ) (E : Set ℤ) (r : Bool × ℤ × ℤ) : Prop :=
  (r.1 = true ∧ FirstGap f t E r.2.1 r.2.2) ∨ (r = (false, 0, 0) ∧ ∀ k, f ≤ k → k ≤ t → k ∈ E)

theorem getClosesRange_spec {S : Sig} {f t : ℤ} {ex : List ℤ} {E : Set ℤ} (hf : 1 ≤ f)
    (hft : f ≤ t) (hex : ∀ k, k ∈ ex ↔ k ∈ E ∧ f ≤ k ∧ k ≤ t) :
    ∃ r, (getClosesRange f t ex : Prog S _) = .ret r ∧ IsFirstGap f t E r := by
  have h₁ : ¬ f > t := by omega
  have h₂ : ¬ (f < 1 ∨ t < 1) := by omega
  unfold getClosesRange
  rw [if_neg h₁, if_neg h₂]
  by_cases hnil : ex.length = 0
  · have hnone : ∀ k, f ≤ k → k ≤ t → k ∉ E := by
      intro k hk₁ hk₂ hk
      have hmem := (hex k).2 ⟨hk, hk₁, hk₂⟩
      rw [List.length_eq_zero_iff.1 hnil] at hmem
      cases hmem
    rw [if_pos hnil]
    exact ⟨_, rfl, Or.inl ⟨rfl, ⟨le_rfl, hft, le_rfl⟩,
      fun k h₁ h₂ => absurd h₂ (not_lt.2 h₁), hnone, Or.inl rfl⟩⟩
  · rw [if_neg hnil]
    refine ⟨_, rfl, ?_⟩
    rcases firstRun_spec hf with ⟨hr, ⟨hn, hnm, hmt⟩, hb, hfree, hmax⟩ | ⟨hr, hall⟩
    · refine Or.inl ⟨hr, ⟨hn, hnm, hmt⟩, fun k h₁ h₂ => ((hex k).1 (hb k h₁ h₂)).1, ?_, ?_⟩
      · intro k h₁ h₂ hk
        exact hfree k h₁ h₂ ((hex k).2 ⟨hk, by omega, by omega⟩)
      · exact hmax.imp_right fun h => ((hex _).1 h).1
    · exact Or.inr ⟨hr, fun k h₁ h₂ => ((hex k).1 (hall k h₁ h₂)).1⟩

/-! ## Windows -/

/-- The first gap of `E` above `f`, cut at the end of its window: the windows begin at
    `f` and have `size` numbers each, up to the limit. -/
structure NextGap (f upTo : ℤ) (size : ℕ) (E : Set ℤ) (n m : ℤ) : Prop where
  before : ∀ k, f ≤ k → k < n → k ∈ E
  gap : ∃ i : ℕ, FirstGap (f + size * i) (min upTo (f + size * i + size - 1)) E n m

/-- A result of `GetClosesRangeWithExtensible`. -/
def IsNextGap (f upTo : ℤ) (size : ℕ) (E : Set ℤ) (r : Bool × ℤ × ℤ) : Prop :=
  (r.1 = true ∧ NextGap f upTo size E r.2.1 r.2.2) ∨
    (r = (false, 0, 0) ∧ ∀ k, f ≤ k → k ≤ upTo → k ∈ E)

/-- What is known of the result of a query that may fail only if `Err` holds. -/
def Reported {α : Type} (Err : Prop) (G : α → Prop) : Except Error α → Prop
  | .error _ => Err
  | .ok a => G a

section
variable {S : Sig} {W : Type} {T : Spec W} {H : Handler S W} {E : Set ℤ} {I : W → Prop}
  {Err : Prop} {getExcludeNumbers : ℤ → ℤ → Prog S (Except Error (List ℤ))}

/-- The query returns the numbers of `E` in the range asked for, or an error, and keeps
    what is known of the world. -/
def Reports (T : Spec W) (H : Handler S W) (E : Set ℤ) (I : W → Prop) (Err : Prop)
    (getExcludeNumbers : ℤ → ℤ → Prog S (Except Error (List ℤ))) : Prop :=
  ∀ f t w, I w → T.wp H (getExcludeNumbers f t)
    (fun a w' => I w' ∧ Reported Err (fun l => ∀ k, k ∈ l ↔ k ∈ E ∧ f ≤ k ∧ k ≤ t) a) w

theorem wp_extendRange (hget : Reports T H E I Err getExcludeNumbers) {f₀ upTo : ℤ} {size : ℕ}
    (hf₀ : 1 ≤ f₀) (hsize : 1 ≤ size) {fuel i : ℕ} {f t : ℤ} {w : W} (hw : I w)
    (hf : f = f₀ + size * i) (ht : t = min upTo (f + size - 1)) (hft : f ≤ t)
    (hfuel : upTo - t < fuel) (hall : ∀ k, f₀ ≤ k → k ≤ t → k ∈ E) :
    T.wp H (extendRange getExcludeNumbers upTo size fuel f t)
      (fun a w' => I w' ∧ Reported Err (IsNextGap f₀ upTo size E) a) w := by
  induction fuel generalizing i f t w with
  | zero => omega
  | succ fuel ih =>
    have hf' : f ≤ upTo := by omega
    unfold extendRange
    simp only [hf', if_true]
    split_ifs with hout
    · -- the last window ended at the limit
      refine ⟨hw, Or.inr ⟨rfl, fun k h₁ h₂ => hall k h₁ ?_⟩⟩
      omega
    · have hwin : t + 1 = f₀ + size * ((i + 1 : ℕ) : ℤ) := by
        rw [Int.natCast_add, Int.mul_add]
        omega
      have hmul : (0 : ℤ) ≤ size * i := Int.mul_nonneg (Int.natCast_nonneg _) (Int.natCast_nonneg _)
      refine Spec.wp_seq (hget (t + 1) (min upTo (t + 1 + size - 1)) w hw) ?_
      rintro (err | l) w' ⟨hw', hl⟩
      · exact ⟨hw', hl⟩
      · obtain ⟨r, hret, hgap⟩ := getClosesRange_spec (S := S) (by omega) (by omega) hl
        simp only [hret, Prog.bind_ret]
        rcases hgap with ⟨htrue, hgap⟩ | ⟨hfalse, hrest⟩
        · rw [if_pos htrue]
          refine ⟨hw', Or.inl ⟨htrue, fun k h₁ h₂ => ?_, i + 1, hwin ▸ hgap⟩⟩
          by_cases hk : k ≤ t
          · exact hall k h₁ hk
          · exact hgap.before k (by omega) h₂
        · rw [hfalse]
          refine ih hw' hwin rfl (by omega) (by omega) fun k h₁ h₂ => ?_
          by_cases hk : k ≤ t
          · exact hall k h₁ hk
          · exact hrest k (by omega) h₂

theorem wp_getClosesRangeWithExtensible (hget : Reports T H E I Err getExcludeNumbers)
    {f t upTo : ℤ} {size : ℕ} {w : W} (hw : I w) (hf : 1 ≤ f) (hfu : f ≤ upTo) (hsize : 1 ≤ size)
    (ht : t = min upTo (f + size - 1)) :
    T.wp H (getClosesRangeWithExtensible f t getExcludeNumbers upTo size)
      (fun a w' => I w' ∧ Reported Err (IsNextGap f upTo size E) a) w := by
  have h₁ : ¬ f > t := by omega
  have h₂ : ¬ (f < 1 ∨ t < 1) := by omega
  have h₃ : ¬ (upTo < 1 ∨ size < 1) := by omega
  unfold getClosesRangeWithExtensible
  rw [if_neg h₁, if_neg h₂]
  refine Spec.wp_seq (hget f t w hw) ?_
  rintro (err | l) w' ⟨hw', hl⟩
  · exact ⟨hw', hl⟩
  · obtain ⟨r, hret, hgap⟩ := getClosesRange_spec (S := S) hf (by omega) hl
    simp only [hret, Prog.bind_ret]
    rcases hgap with ⟨htrue, hgap⟩ | ⟨hfalse, hrest⟩
    · rw [if_pos htrue]
      exact ⟨hw', Or.inl ⟨htrue, hgap.before, 0, by simpa [ht] using hgap⟩⟩
    · rw [hfalse]
      simp only [h₃, if_false]
      exact wp_extendRange hget hf hsize (i := 0) hw' (by simp) ht (by omega) (by omega) hrest

end

/-- **The next range**: it is the first gap of the failed heights above the latest
    indexed block, and there is none iff they are all failed. -/
theorem wp_determineBlockRangeToIndex {W : Type} {T : Spec W} {H : Handler sig W} {E : Set ℤ}
    {I : W → Prop} {Err : Prop} (hget : Reports T H E I Err getFailedBlocksInRange)
    {latest upstream : ℤ} {w : W} (hw : I w) (hl : 0 ≤ latest) (hu : latest < upstream) :
    T.wp H (determineBlockRangeToIndex latest upstream) (fun a w' => I w' ∧ Reported Err
      (IsNextGap (latest + 1) upstream maximumNumberOfBlocksToIndexPerBatch E) a) w := by
  have h : ¬ (latest < 0 ∨ latest > upstream) := by omega
  unfold determineBlockRangeToIndex
  rw [if_neg h]
  exact wp_getClosesRangeWithExtensible hget hw (by omega) (by omega) (by decide) rfl

/-! ## Failing queries -/

section
variable {S : Sig} {W α : Type} {T : Spec W} {H : Handler S W} {I : W → Prop} {E : Error → W → Prop}
  {getExcludeNumbers : ℤ → ℤ → Prog S (Except Error (List ℤ))}

/-- What is known after an operation: of its error, or else of the world. -/
def Passed (I : W → Prop) (E : Error → W → Prop) : Except Error α → W → Prop
  | .error err, w => E err w
  | .ok _, w => I w

theorem wp_getClosesRange (hpanics : ∀ msg w, T.panics msg w) {Q : Bool × ℤ × ℤ → W → Prop}
    {f t : ℤ} {ex : List ℤ} {w : W} (hQ : ∀ r, Q r w) : T.wp H (getClosesRange f t ex) Q w := by
  unfold getClosesRange
  split_ifs
  · exact hpanics _ _
  · exact hpanics _ _
  · exact hQ _
  · exact hQ _

/-- A query with the range in its answer; an error of the query is the error of the whole. -/
theorem wp_query_getClosesRange (hpanics : ∀ msg w, T.panics msg w)
    {query : Prog S (Except Error (List ℤ))} {f t : ℤ}
    {next : Bool × ℤ × ℤ → Prog S (Except Error (Bool × ℤ × ℤ))} {w : W}
    (hquery : T.wp H query (Passed I E) w)
    (hnext : ∀ r w', I w' → T.wp H (next r) (Passed I E) w') :
    T.wp H (do
      match ← query with
      | .error err => return .error err
      | .ok excludeNumbers => getClosesRange f t excludeNumbers >>= next) (Passed I E) w := by
  refine Spec.wp_seq hquery ?_
  rintro (err | l) w' hw'
  · exact hw'
  · exact Spec.wp_seq (wp_getClosesRange (Q := fun _ w'' => I w'') hpanics fun _ => hw')
      fun r w'' hw'' => hnext r w'' hw''

theorem wp_extendRange_passed (hpanics : ∀ msg w, T.panics msg w)
    (hget : ∀ f t w, I w → T.wp H (getExcludeNumbers f t) (Passed I E) w) {upTo : ℤ} {size fuel : ℕ}
    {f t : ℤ} {w : W} (hw : I w) :
    T.wp H (extendRange getExcludeNumbers upTo size fuel f t) (Passed I E) w := by
  induction fuel generalizing f t w with
  | zero => exact hw
  | succ fuel ih =>
    unfold extendRange
    dsimp only
    split_ifs
    · exact hw
    · refine wp_query_getClosesRange hpanics (hget _ _ w hw) ?_
      rintro ⟨hasResult, n, m⟩ w' hw'
      cases hasResult with
      | true => exact hw'
      | false => exact ih hw'
    · exact hw

/-- An error of a query is the error of the whole. -/
theorem wp_getClosesRangeWithExtensible_passed (hpanics : ∀ msg w, T.panics msg w)
    (hget : ∀ f t w, I w → T.wp H (getExcludeNumbers f t) (Passed I E) w) {f t upTo : ℤ} {size : ℕ}
    {w : W} (hw : I w) :
    T.wp H (getClosesRangeWithExtensible f t getExcludeNumbers upTo size) (Passed I E) w := by
  unfold getClosesRangeWithExtensible
  by_cases h₁ : f > t
  · rw [if_pos h₁]
    exact hpanics _ _
  rw [if_neg h₁]
  by_cases h₂ : f < 1 ∨ t < 1
  · rw [if_pos h₂]
    exact hpanics _ _
  rw [if_neg h₂]
  refine wp_query_getClosesRange hpanics (hget f t w hw) ?_
  rintro ⟨hasResult, n, m⟩ w' hw'
  cases hasResult with
  | true => exact hw'
  | false =>
    show T.wp H (if upTo < 1 ∨ size < 1 then _ else _) _ w'
    split_ifs
    · exact hw'
    · exact wp_extendRange_passed hpanics hget hw'

end

/-! ## The range of every run -/

section
variable {W : Type} {H : Handler sig W} {F : Set ℤ}

/-- The database reports the failed heights `F`, whenever a query does not fail; a list may
    have any order and repeat heights. -/
def ReportsFailed (H : Handler sig W) (F : Set ℤ) : Prop :=
  ∀ f t l w, H.allows (.selectFailedBlocksInRange f t) (.ok l) w →
    ∀ k, k ∈ l ↔ k ∈ F ∧ f ≤ k ∧ k ≤ t

/-- The call is a query for failed blocks that has failed. -/
def QueryFailed (err : Error) (e : Answered) : Prop :=
  ∃ f t, e = ⟨.selectFailedBlocksInRange f t, .error err⟩

def NoFailedQuery (x : W × List Answered) : Prop := ∀ e ∈ x.2, ∀ err, ¬ QueryFailed err e

/-- The error is that of the query that has failed. -/
def OnlyFailedQuery (err' : Error) (x : W × List Answered) : Prop :=
  ∃ err, err' = wrap err "failed to get failed block" ∧ (∃ e ∈ x.2, QueryFailed err e) ∧
    ∀ e ∈ x.2, ∀ err₁, QueryFailed err₁ e → err₁ = err

theorem reports_of_reportsFailed (hF : ReportsFailed H F) :
    Reports (Spec.noPanics _) H.logged F (fun _ => True) True getFailedBlocksInRange := by
  intro f t x _
  refine Spec.wp_call_bind trivial fun a ha => ⟨trivial, ?_⟩
  cases a with
  | error err => exact ⟨trivial, trivial⟩
  | ok l => exact ⟨trivial, hF f t l x.1 ha⟩

/-- A query that fails is the only one of its run, and its error is returned. -/
theorem passed_getFailedBlocksInRange (f t : ℤ) {x : W × List Answered}
    (hx : NoFailedQuery x) : (Spec.anything _).wp H.logged (getFailedBlocksInRange f t)
      (Passed NoFailedQuery OnlyFailedQuery) x := by
  refine Spec.wp_call_bind trivial fun a _ => ⟨trivial, ?_⟩
  cases a with
  | error err =>
    refine ⟨err, rfl, ⟨_, List.mem_cons_self, f, t, rfl⟩, fun e he err₁ hf => ?_⟩
    rcases List.mem_cons.1 he with rfl | he
    · obtain ⟨f₁, t₁, hq⟩ := hf
      cases hq
      rfl
    · exact absurd hf (hx e he err₁)
  | ok l =>
    intro e he err hf
    rcases List.mem_cons.1 he with rfl | he
    · obtain ⟨f₁, t₁, hq⟩ := hf
      cases hq
    · exact hx e he err hf

theorem wp_passed_determineBlockRangeToIndex {latest upstream : ℤ} (hl : 0 ≤ latest)
    (hu : latest < upstream) (w : W) :
    (Spec.anything _).wp H.logged (determineBlockRangeToIndex latest upstream)
      (Passed NoFailedQuery OnlyFailedQuery) (w, []) := by
  have h : ¬ (latest < 0 ∨ latest > upstream) := by omega
  unfold determineBlockRangeToIndex
  rw [if_neg h]
  refine wp_getClosesRangeWithExtensible_passed (fun _ _ => trivial)
    (fun f t x hx => passed_getFailedBlocksInRange f t hx) fun e he => ?_
  cases he

/-- The end of the window with the number `i` above `latest`. -/
def windowEnd (latest upstream : ℤ) (i : ℕ) : ℤ := min upstream (latest + 100 * (i + 1))

/-- What is reported: the first heights above `latest` that have not failed, within one
    window. -/
structure NextRange (latest upstream : ℤ) (F : Set ℤ) (f t : ℤ) : Prop where
  first : latest < f ∧ f ∉ F ∧ ∀ k, latest < k → k < f → k ∈ F
  range : f ≤ t ∧ t ≤ upstream ∧ t - f + 1 ≤ 100
  free : ∀ k, f ≤ k → k ≤ t → k ∉ F
  window : ∃ i : ℕ, latest + 1 + 100 * i ≤ f ∧ f ≤ windowEnd latest upstream i ∧
    (t = windowEnd latest upstream i ∨ t + 1 ∈ F)

theorem IsNextGap.nextRange {latest upstream : ℤ} {r : Bool × ℤ × ℤ}
    (h : IsNextGap (latest + 1) upstream maximumNumberOfBlocksToIndexPerBatch F r) :
    (r.1 = false ↔ ∀ k, latest < k → k ≤ upstream → k ∈ F) ∧
      (r.1 = true → NextRange latest upstream F r.2.1 r.2.2) := by
  rcases h with ⟨htrue, hbefore, i, ⟨hn, hnm, hm⟩, -, hfree, hmax⟩ | ⟨rfl, hall⟩
  · have hend : min upstream (latest + 1 + (maximumNumberOfBlocksToIndexPerBatch : ℕ) * (i : ℤ) +
        (maximumNumberOfBlocksToIndexPerBatch : ℕ) - 1) = windowEnd latest upstream i := by
      unfold windowEnd maximumNumberOfBlocksToIndexPerBatch
      congr 1
      push_cast
      omega
    rw [hend] at hm hmax
    have hn' : latest + 1 + 100 * (i : ℤ) ≤ r.2.1 := by
      simpa [maximumNumberOfBlocksToIndexPerBatch] using hn
    have hle : r.2.2 ≤ upstream := hm.trans (min_le_left _ _)
    have hlast : r.2.2 ≤ latest + 100 * (i + 1) := hm.trans (min_le_right _ _)
    have hgap : NextRange latest upstream F r.2.1 r.2.2 := by
      refine ⟨⟨by omega, hfree _ le_rfl hnm, fun k h₁ h₂ => hbefore k (by omega) h₂⟩,
        ⟨hnm, hle, by omega⟩, hfree, i, hn', hnm.trans hm, hmax⟩
    refine ⟨⟨fun hf => ?_, fun hF => ?_⟩, fun _ => hgap⟩
    · rw [htrue] at hf
      cases hf
    · exact absurd (hF _ hgap.first.1 (hnm.trans hle)) hgap.first.2.1
  · refine ⟨⟨fun _ k h₁ h₂ => hall k (by omega) h₂, fun _ => rfl⟩, fun hf => ?_⟩
    cases hf

/-- **The next range** of every run: it terminates without a panic, and returns the first
    gap of the failed heights, or the error of the query that has failed. -/
theorem determineBlockRangeToIndex_firstGap (hF : ReportsFailed H F) {latest upstream : ℤ}
    (hl : 0 ≤ latest) (hu : latest < upstream) (w : W) :
    Acc (fun y x => Effect.Step H.logged x y)
      (determineBlockRangeToIndex latest upstream, (w, [])) ∧
    (∀ x msg, ¬ Run H.logged (determineBlockRangeToIndex latest upstream, (w, []))
      (.panic msg, x)) ∧
    ∀ r w' calls, Run H.logged (determineBlockRangeToIndex latest upstream, (w, []))
        (.ret r, (w', calls)) →
      (∀ e ∈ calls, ∀ err, QueryFailed err e → r = .error (wrap err "failed to get failed block")) ∧
      (∀ err', r = .error err' → ∃ e ∈ calls, ∃ err, QueryFailed err e) ∧
      ∀ anyBlock f t, r = .ok (anyBlock, f, t) →
        (anyBlock = false ↔ ∀ k, latest < k → k ≤ upstream → k ∈ F) ∧
        (anyBlock = true → NextRange latest upstream F f t) := by
  have hwp := wp_determineBlockRangeToIndex (w := (w, [])) (reports_of_reportsFailed hF) trivial
    hl hu
  refine ⟨Effect.Step.acc _ _ _, fun x msg hr => ?_, fun r w' calls hr => ?_⟩
  · exact Spec.wp_run (x := (determineBlockRangeToIndex latest upstream, (w, []))) hwp hr
  have hgap := (Spec.wp_result hwp hr).2
  have hpassed := Spec.wp_result (wp_passed_determineBlockRangeToIndex hl hu w) hr
  cases r with
  | error err' =>
    obtain ⟨err, rfl, ⟨e, he, hf⟩, honly⟩ := hpassed
    refine ⟨fun e₁ he₁ err₁ hf₁ => ?_, fun _ _ => ⟨e, he, err, hf⟩, fun _ _ _ h => ?_⟩
    · rw [honly e₁ he₁ err₁ hf₁]
    · cases h
  | ok res =>
    refine ⟨fun e he err hf => absurd hf (hpassed e he err), fun _ h => ?_, fun _ _ _ h => ?_⟩
    · cases h
    · obtain rfl := Except.ok.inj h
      exact IsNextGap.nextRange hgap

/-- A database with the failed heights 3 and 4, which it reports in some order, one of them
    twice. -/
def twoFailedHandler : Handler sig Unit where
  allows
    | .selectFailedBlocksInRange f t, a, _ => a = .ok ([4, 3, 4].filter fun h => f ≤ h && h ≤ t)
    | _, _, _ => True
  effect _ _ _ := ()

theorem reportsFailed_twoFailedHandler : ReportsFailed twoFailedHandler {3, 4} := by
  intro f t l w hl k
  obtain rfl := Except.ok.inj hl
  simp only [List.mem_filter, Bool.and_eq_true, decide_eq_true_eq, List.mem_cons,
    List.not_mem_nil, or_false, Set.mem_insert_iff, Set.mem_singleton_iff]
  exact and_congr_left fun _ => by omega

/-- The next range above height 2 is height 5. -/
theorem determineBlockRangeToIndex_twoFailed : NextRange 2 5 {3, 4} 5 5 := by
  have hquery : twoFailedHandler.allows (.selectFailedBlocksInRange 3 5) (.ok [4, 3, 4]) () := rfl
  have hrun : Run twoFailedHandler.logged (determineBlockRangeToIndex 2 5, ((), []))
      (.ret (.ok (true, 5, 5)), ((), [⟨.selectFailedBlocksInRange 3 5, .ok [4, 3, 4]⟩])) :=
    .head (.call (H := twoFailedHandler.logged) (w := ((), [])) hquery) .refl
  exact ((determineBlockRangeToIndex_firstGap reportsFailed_twoFailedHandler (by decide)
    (by decide) ()).2.2 _ _ _ hrun).2.2 _ _ _ rfl |>.2 rfl

end

/-- The failed blocks are queried from the ledger. -/
theorem reports_getFailedBlocksInRange {R : Type} {T : Spec (World R)} {d : Indexer R}
    {rpc : Answers} (hT : Quiet T) (w₀ : World R) :
    Reports T (environment d rpc) w₀.ledger.failed (fun w => w₀.Calm w ∧ T.inv w) True
      getFailedBlocksInRange := by
  rintro f t w ⟨hcalm, hw⟩
  refine hT.wp_call hw (fun a _ => World.calm_after rfl rfl id) fun a ha hcalm' hw' => ?_
  cases a with
  | error err => exact ⟨⟨hcalm.trans hcalm', hw'⟩, trivial⟩
  | ok l =>
    refine ⟨⟨hcalm.trans hcalm', hw'⟩, fun k => ?_⟩
    rw [(ha l rfl).mem_iff, mem_failedBlocksInRange, ← hcalm.ledger]
    rfl

end RollappExplorer
