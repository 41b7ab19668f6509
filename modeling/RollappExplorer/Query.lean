/-
  The query `be_getTransactionsInBlockRange` (`services/query`), from the parsed
  response on.

  * `beTransactionsInBlockRange`: the checks of a response, and its transformation;
  * `beTransactionsInBlockRange_ok`: what is known of an accepted response: the
    limits hold, the chain id is the one asked for, every listed height lies in the
    range, and every block is a block of the response under its parsed key.
-/
import RollappExplorer.Response

namespace RollappExplorer

open Go

/-- One of the two lists of heights without a block. -/
def validateHeights (what : String) (heights : List ℤ) (f t : ℤ) : Except Error Unit :=
  heights.forM fun height =>
    failIf (height < f ∨ height > t)
      (wrap errBlackList s!"{what} block {height} out of range [{f}, {t}]")

/-- The block under a key, with its height extracted from the key. -/
def extractBlock (f t : ℤ) (entry : String × BlockInResponse) : Except Error BlockInResponse :=
  match parseInt64 entry.1 with
  | none => .error (wrap errBlackList s!"malformed block height {entry.1}")
  | some height => do
    failIf (height < f ∨ height > t)
      (wrap errBlackList s!"block height {height} out of range [{f}, {t}]")
    return { entry.2 with height := height }

/-- `BeTransactionsInBlockRange(f, t)` of a service for the chain `chainId`, at the
    time `now`, when the endpoint answers `r`. -/
def beTransactionsInBlockRange (sdk : Sdk) (o : MapOrder) (chainId : String) (now f t : ℤ)
    (r : ResponseBeTransactionsInBlockRange) :
    Except Error TransformedResponseBeTransactionsInBlockRange := do
  (r.validateBasic sdk o now).mapError newErrResponseValidationFailedFrom
  failIf (r.chainId ≠ chainId)
    (wrap errBlackListDueToMisMatchChainId s!"want {chainId}, got {r.chainId}")
  validateHeights "missing" r.missingBlocks f t
  validateHeights "error" r.errorBlocks f t
  let blocks ← (o.range [0] r.blocks.pairs).mapM (extractBlock f t)
  return ⟨blocks, r.missingBlocks, r.errorBlocks⟩

/-- The heights an accepted response accounts for. -/
def TransformedResponseBeTransactionsInBlockRange.heights
    (res : TransformedResponseBeTransactionsInBlockRange) : List ℤ :=
  res.blocks.map (·.height) ++ res.missingBlocks ++ res.errorBlocks

/-- Nothing is assumed of the response. -/
def AnyAnswer (_ _ : ℤ) (_ : TransformedResponseBeTransactionsInBlockRange) : Prop := True

/-- The response lists every height of the range. -/
def Lists (f t : ℤ) (res : TransformedResponseBeTransactionsInBlockRange) : Prop :=
  ∀ h, f ≤ h → h ≤ t → h ∈ res.heights

/-- The response lists every height of the range, and none twice. -/
def ListsOnce (f t : ℤ) (res : TransformedResponseBeTransactionsInBlockRange) : Prop :=
  Lists f t res ∧ res.heights.Nodup

variable {sdk : Sdk} {o : MapOrder} {chainId : String} {now f t : ℤ}
  {r : ResponseBeTransactionsInBlockRange} {res : TransformedResponseBeTransactionsInBlockRange}

theorem validateHeights_ok_iff {what : String} {heights : List ℤ} {u : Unit} :
    validateHeights what heights f t = .ok u ↔ ∀ h ∈ heights, f ≤ h ∧ h ≤ t := by
  unfold validateHeights
  simp only [forM_ok_iff, failIf_ok_iff, not_or, not_lt, gt_iff_lt]

theorem extractBlock_ok {entry : String × BlockInResponse} {b : BlockInResponse}
    (h : extractBlock f t entry = .ok b) :
    ∃ height, parseInt64 entry.1 = some height ∧ f ≤ height ∧ height ≤ t ∧
      b = { entry.2 with height := height } := by
  unfold extractBlock at h
  cases hp : parseInt64 entry.1 with
  | none => rw [hp] at h; cases h
  | some height =>
    simp only [hp, bind_unit_ok_iff, failIf_ok_iff, not_or, not_lt, gt_iff_lt] at h
    obtain ⟨⟨hf, ht⟩, hb⟩ := h
    exact ⟨height, rfl, hf, ht, (Except.ok.inj hb).symm⟩

/-- What is known of an accepted response. -/
structure Accepted (sdk : Sdk) (chainId : String) (now f t : ℤ)
    (r : ResponseBeTransactionsInBlockRange)
    (res : TransformedResponseBeTransactionsInBlockRange) : Prop where
  limits : Limits sdk InvolversInTransaction.addressesButOthers now r
  chainId : r.chainId = chainId
  missing : res.missingBlocks = r.missingBlocks ∧ ∀ h ∈ res.missingBlocks, f ≤ h ∧ h ≤ t
  error : res.errorBlocks = r.errorBlocks ∧ ∀ h ∈ res.errorBlocks, f ≤ h ∧ h ≤ t
  blocks : ∀ b ∈ res.blocks, f ≤ b.height ∧ b.height ≤ t ∧
    ∃ p ∈ r.blocks.pairs, parseInt64 p.1 = some b.height ∧ b = { p.2 with height := b.height }

/-- **Accepted responses.** -/
theorem beTransactionsInBlockRange_ok
    (h : beTransactionsInBlockRange sdk o chainId now f t r = .ok res) :
    Accepted sdk chainId now f t r res := by
  unfold beTransactionsInBlockRange at h
  simp only [bind_ok_iff, mapError_ok_iff, failIf_ok_iff, validateHeights_ok_iff, not_not] at h
  obtain ⟨_, hv, _, hc, _, hm, _, he, blocks, hb, hres⟩ := h
  obtain rfl := (Except.ok.inj hres).symm
  refine ⟨ResponseBeTransactionsInBlockRange.validateBasic_ok_iff.1 hv, hc, ⟨rfl, hm⟩, ⟨rfl, he⟩,
    fun b hbm => ?_⟩
  obtain ⟨p, hp, hpb⟩ := mem_of_mapM_ok hb hbm
  obtain ⟨height, hparse, hf, ht, rfl⟩ := extractBlock_ok hpb
  exact ⟨hf, ht, p, (MapOrder.mem_range o _).1 hp, hparse, rfl⟩

/-- Every height of an accepted response lies in the range asked for. -/
theorem Accepted.mem_range (h : Accepted sdk chainId now f t r res) :
    ∀ n ∈ res.heights, f ≤ n ∧ n ≤ t := by
  intro n hn
  simp only [TransformedResponseBeTransactionsInBlockRange.heights, List.mem_append,
    List.mem_map] at hn
  rcases hn with (⟨b, hb, rfl⟩ | hn) | hn
  · exact ⟨(h.blocks b hb).1, (h.blocks b hb).2.1⟩
  · exact h.missing.2 n hn
  · exact h.error.2 n hn

/-- The blocks of an accepted response are within the limits. -/
theorem Accepted.blockLimits (h : Accepted sdk chainId now f t r res) :
    ∀ b ∈ res.blocks, BlockLimits sdk InvolversInTransaction.addressesButOthers now b := by
  intro b hb
  obtain ⟨-, -, p, hp, -, hpb⟩ := h.blocks b hb
  have hl := h.limits.blocks p hp
  rw [hpb]
  exact ⟨hl.time, hl.txs, hl.each⟩

end RollappExplorer
