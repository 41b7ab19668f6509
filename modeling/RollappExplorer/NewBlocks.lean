/-
  The main loop with the retries disabled.

  * `mainLoop_loses_no_height`: the latest height never decreases, and every height up to
    it has been indexed or is recorded as failed, at every moment of every run;
  * `indexed_of_error`: a height that has been indexed and is recorded as failed after an
    iteration has been indexed by one that ended with an error.
-/
import RollappExplorer.Iterations
import RollappExplorer.Scenario

namespace RollappExplorer

open Go Effect

variable {R : Type} {d : Indexer R} {w : World R}

/-- Batches are for new blocks only. -/
def OnlyNewBlocks : Purpose ℤ → Prop
  | .newBlocks _ _ _ => True
  | .retry _ _ => False

/-! ## No height is lost -/

def Lossless (m : Machine ℤ) : Prop := NoLoss 0 m ∧ 0 ≤ m.ledger.latest

theorem maintained_lossless (hd : d.disableRetryIndexFailedBlocks = true) :
    Maintained d Lists (rulesOf Lists OnlyNewBlocks) Lossless where
  closed _ _ h hs :=
    ⟨h.1.step (fun _ _ ha => ha) covering_rulesOf hs, le_trans h.2 hs.latest_le⟩
  latest _ h := h.2
  answers _ _ res hres := ⟨res, hres, rfl⟩
  newBlocks _ _ _ := trivial
  retry hd' := absurd (hd.symm.trans hd') Bool.noConfusion
  gapless hd' := absurd (hd.symm.trans hd') Bool.noConfusion

theorem lossless_freshWorld (records : R) : (freshWorld records).At Lossless .idle := by
  refine ⟨⟨⟨fun k ho hk => absurd (lt_of_lt_of_le ho hk) (lt_irrefl _), trivial⟩, le_rfl⟩, trivial⟩

/-- **New blocks are not lost**: at every moment of a run, whatever fails, every height up
    to the latest one has been indexed or is recorded as failed. -/
theorem mainLoop_loses_no_height (d : Indexer R) (hd : d.disableRetryIndexFailedBlocks = true)
    (records : R) {x : Prog sig LoopResult × World R}
    (hx : (mainLoop d Lists).Reach (freshWorld records) x) :
    (∀ h, 1 ≤ h → h ≤ x.2.db.latestIndexedBlock →
        h ∈ x.2.history.indexed ∨ h ∈ x.2.db.failedBlock) ∧
      ∀ y, Relation.ReflTransGen (mainLoop d Lists).Trans x y →
        x.2.db.latestIndexedBlock ≤ y.2.db.latestIndexedBlock := by
  have hM := maintained_lossless hd
  have hrestart : ∀ m, Lossless m → Lossless m.restart := fun m h => ⟨h.1.restart, h.2⟩
  have h₀ := lossless_freshWorld records
  have hkeeps := mainLoop_keeps hM hrestart
  constructor
  · obtain ⟨φ, hat⟩ := hkeeps.inv (Service.Reach.wp hkeeps ⟨_, h₀⟩ hx)
    exact fun h h1 hl => hat.holds.1.covered h h1 hl
  · exact fun y hxy => latest_le_of_run hM hrestart h₀ hx hxy

/-- An upstream with two blocks, the second of which it cannot deliver. -/
def oneErrorBlock : Scenario Unit where
  chainInfo _ := sampleChainInfo 2
  response f t _ := if (f, t) = (1, 2) then some (emptyBlocks ["1"] [2]) else none
  fails _ _ := false

/-- The first block is indexed, and the second one is recorded as failed. -/
theorem oneErrorBlock_loses_no_height :
    (oneErrorBlock.drive (sampleIndexer true) Lists 10 (freshWorld ())).2.db.latestIndexedBlock = 1 ∧
      ∀ h, 1 ≤ h → h ≤ 1 →
        h ∈ (oneErrorBlock.drive (sampleIndexer true) Lists 10 (freshWorld ())).2.history.indexed ∨
        h ∈ (oneErrorBlock.drive (sampleIndexer true) Lists 10 (freshWorld ())).2.db.failedBlock := by
  have hlatest : (oneErrorBlock.drive (sampleIndexer true) Lists 10
      (freshWorld ())).2.db.latestIndexedBlock = 1 := by decide
  refine ⟨hlatest, fun h h1 hle => ?_⟩
  exact (mainLoop_loses_no_height (sampleIndexer true) rfl ()
    (oneErrorBlock.reach (sampleIndexer true) Lists 10 (freshWorld ()))).1 h h1 (hlatest ▸ hle)

/-! ## Heights that are both indexed and failed -/

theorem once_rulesOf {asks : Purpose ℤ → Prop} : (rulesOf ListsOnce asks).Once := by
  rintro f t _ ⟨res, ⟨-, honce⟩, rfl⟩
  have hperm : (sortBlocks res.blocks).Perm res.blocks := List.perm_insertionSort _ _
  obtain ⟨hbm, -, herr⟩ := List.nodup_append.1 honce
  obtain ⟨hblocks, -, hmiss⟩ := List.nodup_append.1 hbm
  have hmem : ∀ a ∈ (sortBlocks res.blocks).map fun b => Task.block b.height, ∀ k ∈ a.heights,
      k ∈ res.blocks.map (·.height) := by
    intro a ha k hk
    obtain ⟨b, hb, rfl⟩ := List.mem_map.1 ha
    obtain rfl := List.mem_singleton.1 hk
    exact List.mem_map_of_mem (hperm.mem_iff.1 hb)
  refine List.pairwise_cons.2 ⟨fun a ha k hk hka => ?_, List.pairwise_cons.2
    ⟨fun a ha k hk hka => ?_, List.pairwise_map.2 ?_⟩⟩
  · rcases List.mem_cons.1 ha with rfl | ha
    · exact herr k (List.mem_append_right _ hka) k hk rfl
    · exact herr k (List.mem_append_left _ (hmem a ha k hka)) k hk rfl
  · exact hmiss k (hmem a ha k hka) k hk rfl
  · have hsorted := (hperm.map (·.height)).nodup_iff.2 hblocks
    refine (List.pairwise_map.1 hsorted).imp fun hne k hk hk' => hne ?_
    exact (List.mem_singleton.1 hk).symm.trans (List.mem_singleton.1 hk')

/-- The heights indexed by iterations that ended with an error. -/
def indexedBeforeError (rs : List (Service.Round (World R) LoopResult)) : Set ℤ :=
  {k | ∃ r ∈ rs, r.result.err ≠ none ∧ k ∈ r.after.history.indexed ∧ k ∉ r.before.history.indexed}

theorem maintained_separate (hd : d.disableRetryIndexFailedBlocks = true) (s₀ : Ledger ℤ)
    (B : Set ℤ) :
    Maintained d ListsOnce (rulesOf ListsOnce OnlyNewBlocks) (Separate 0 s₀ B) where
  closed _ _ h hs := h.step (fun _ _ ha => ha) once_rulesOf hs
  latest _ h := h.latest
  answers _ _ res hres := ⟨res, hres, rfl⟩
  newBlocks _ _ _ := trivial
  retry hd' := absurd (hd.symm.trans hd') Bool.noConfusion
  gapless hd' := absurd (hd.symm.trans hd') Bool.noConfusion

/-- What a complete iteration leaves of the heights that are both indexed and failed. -/
theorem separate_iterated {rs : List (Service.Round (World R) LoopResult)} {w' : World R}
    {r : LoopResult} (h : Iterated (Separate 0 w.ledger (indexedBeforeError rs)) r w') :
    Separate 0 w'.ledger (indexedBeforeError (⟨w, r, w'⟩ :: rs)) (w'.machine .idle) := by
  have hold : ∀ k ∈ indexedBeforeError rs, k ∈ indexedBeforeError (⟨w, r, w'⟩ :: rs) := by
    rintro k ⟨r', hr', hk⟩
    exact ⟨r', List.mem_cons_of_mem _ hr', hk⟩
  rcases h with ⟨h, -⟩ | ⟨herr, h, -⟩
  · exact ⟨h.latest, fun k hk => hk, h.le_latest, fun k hi hf => hold k (h.at_phase k hi hf)⟩
  · refine ⟨h.latest, fun k hk => hk, h.le_latest, fun k hi hf => ?_⟩
    rcases h.at_phase k hi hf with hB | hnew
    · exact hold k hB
    · exact ⟨_, List.mem_cons_self, herr, hi, hnew⟩

/-- **Indexed and failed**: after an iteration a height is both only if it has been
    indexed by an iteration that ended with an error. -/
theorem indexed_of_error (d : Indexer R) (hd : d.disableRetryIndexFailedBlocks = true)
    (db : Tables R) (hdb : 0 ≤ db.latestIndexedBlock)
    {rs : List (Service.Round (World R) LoopResult)} {last : LoopResult} {w : World R}
    (hw : (mainLoop d ListsOnce).Rounds ⟨db, none, [], .start⟩ rs last w) :
    ∀ h, h ∈ w.history.indexed → h ∈ w.db.failedBlock → ∃ r ∈ rs, r.result.err ≠ none ∧
      h ∈ r.after.history.indexed ∧ h ∉ r.before.history.indexed := by
  have hrun : Separate 0 w.ledger (indexedBeforeError rs) (w.machine .idle) := by
    refine Service.Rounds.induct (P := fun rs w =>
      Separate 0 w.ledger (indexedBeforeError rs) (w.machine .idle)) ?_ (fun rs b w h => ?_) hw
    · exact ⟨hdb, fun k hk => hk, fun k hk => (nomatch hk), fun k hk => (nomatch hk)⟩
    · have hiter := wp_iteration (F := False) (maintained_separate hd w.ledger _) ⟨h, trivial⟩ b
      exact ⟨_, Spec.wp_mono (fun r w' h' => separate_iterated h') hiter⟩
  exact fun h hi hf => hrun.at_phase h hi hf

/-- An upstream with two empty blocks, the second of which cannot be recorded. -/
def secondBlockFails : Scenario Unit where
  chainInfo _ := sampleChainInfo 2
  response f t _ := if (f, t) = (1, 2) then some (emptyBlocks ["1", "2"] []) else none
  fails
    | .exec (.updateLatestIndexedBlock 2 _), _ => true
    | _, _ => false

/-- The world after the first iteration of that scenario. -/
def secondBlockFailed : World Unit :=
  (secondBlockFails.finish (sampleIndexer true) ListsOnce 12
    (iteration (sampleIndexer true) ⟨false, none⟩) (freshWorld ())).2

theorem secondBlockFailed_rounds : ∃ rs last,
    (mainLoop (sampleIndexer true) ListsOnce).Rounds (freshWorld ()) rs last secondBlockFailed := by
  obtain ⟨last, -, hrun⟩ := secondBlockFails.run (sampleIndexer true) ListsOnce
    (n := 12) (p := iteration (sampleIndexer true) ⟨false, none⟩) (w := freshWorld ())
    (b := fun _ => true) (by decide)
  exact ⟨_, last, .round .start hrun⟩

/-- The first block is indexed, and recorded as failed at the end of its iteration. -/
theorem indexed_and_failed : ∃ rs last w,
    (mainLoop (sampleIndexer true) ListsOnce).Rounds (freshWorld ()) rs last w ∧
      1 ∈ w.history.indexed ∧ 1 ∈ w.db.failedBlock := by
  obtain ⟨rs, last, hrounds⟩ := secondBlockFailed_rounds
  exact ⟨rs, last, _, hrounds, by decide, by decide⟩

/-- The iteration that indexed it ended with an error. -/
theorem indexed_of_error_secondBlockFailed : ∃ rs last w,
    (mainLoop (sampleIndexer true) ListsOnce).Rounds (freshWorld ()) rs last w ∧
      ∃ r ∈ rs, r.result.err ≠ none ∧ 1 ∈ r.after.history.indexed := by
  obtain ⟨rs, last, hrounds⟩ := secondBlockFailed_rounds
  obtain ⟨r, hr, herr, hafter, -⟩ := indexed_of_error (sampleIndexer true) rfl _ le_rfl hrounds 1
    (by decide) (by decide)
  exact ⟨rs, last, _, hrounds, r, hr, herr, hafter⟩

end RollappExplorer
