/-
  The percentages of the votes on a proposal (`components/client/governance/GovernanceDetail.tsx`).

  The percentages of three options are rounded, and the fourth is what remains.

  * `getVotingPercent`: the texts of the percentages and the option with the most votes;
  * `IsDistribution`: percentages between 0 and 100 that make up 100, near the exact shares, and 0
    without votes;
  * `hundredths_eq`: which shares are rounded up;
  * `getVotingPercent_distribution_iff`: the percentages are a distribution iff rounding up gives no
    more than what the remainders and the fourth option have (`Balanced`).
-/
import Mathlib.Tactic.GCongr
import RollappExplorer.Numbers

namespace RollappExplorer

open Js Text

/-! ## `getVotingPercent` -/

structure FinalTallyResult where
  yes : String
  no : String
  noWithVeto : String
  abstain : String

/-- `{ result, maxId }` -/
structure VotingPercent where
  result : List String
  maxId : ℤ

def defaultVotingPercent : VotingPercent := ⟨["0", "0", "0", "0"], -1⟩

section

variable (J : BigJs)

/-- `votes.div(total).mul(100).round(2)` -/
def votePercent (votes total : J.Big) : Option J.Big := do
  let share ← J.div votes total
  return J.round 2 (J.mul share (J.ofNat 100))

/-- The loop that looks for the most votes. -/
def maxVotes (dataInArray : List J.Big) : ℕ :=
  [1, 2, 3].foldl (fun max i =>
    match dataInArray[i]?, dataInArray[max]? with
    | some votes, some most => if J.gt votes most then i else max
    | _, _ => max) 0

def getVotingPercent (finalTallyResult : Option FinalTallyResult) : Option VotingPercent :=
  match finalTallyResult with
  | none => some defaultVotingPercent
  | some tally => do
    let yes ← J.ofString tally.yes
    let no ← J.ofString tally.no
    let noWithVeto ← J.ofString tally.noWithVeto
    let abstain ← J.ofString tally.abstain
    let total := J.add (J.add (J.add yes no) noWithVeto) abstain
    if J.eq total (J.ofNat 0) then return defaultVotingPercent
    let a ← votePercent J yes total
    let b ← votePercent J no total
    let c ← votePercent J noWithVeto total
    let d := J.round 2 (J.sub (J.sub (J.sub (J.ofNat 100) a) b) c)
    let result ← [a, b, c, d].mapM fun percent => formatNumber J (.inl percent)
    return ⟨result, maxVotes J [yes, no, noWithVeto, abstain]⟩

end

/-! ## Distributions -/

/-- The numbers of votes. -/
structure Votes where
  yes : ℕ
  no : ℕ
  noWithVeto : ℕ
  abstain : ℕ

namespace Votes

def total (v : Votes) : ℕ := v.yes + v.no + v.noWithVeto + v.abstain

theorem cast_total (v : Votes) : (v.total : ℚ) = v.yes + v.no + v.noWithVeto + v.abstain := by
  unfold total
  push_cast
  ring

/-- The first three, which are rounded. -/
def rounded (v : Votes) : List ℕ := [v.yes, v.no, v.noWithVeto]

end Votes

/-- The texts denote the numbers of votes. -/
structure FinalTallyResult.Denotes (tally : FinalTallyResult) (v : Votes) : Prop where
  yes : isDigits tally.yes = true ∧ readDigits 10 tally.yes.toList = v.yes
  no : isDigits tally.no = true ∧ readDigits 10 tally.no.toList = v.no
  noWithVeto : isDigits tally.noWithVeto = true ∧
    readDigits 10 tally.noWithVeto.toList = v.noWithVeto
  abstain : isDigits tally.abstain = true ∧ readDigits 10 tally.abstain.toList = v.abstain

/-- A percentage of some of the votes. -/
structure IsShare (total votes : ℕ) (p : ℚ) : Prop where
  nonneg : 0 ≤ p
  le : p ≤ 100
  near : |p - 100 * (votes / total)| ≤ 0.02
  zero : votes = 0 → p = 0

/-- The percentages of all votes. -/
structure IsDistribution (v : Votes) (a b c d : ℚ) : Prop where
  yes : IsShare v.total v.yes a
  no : IsShare v.total v.no b
  noWithVeto : IsShare v.total v.noWithVeto c
  abstain : IsShare v.total v.abstain d
  sum : a + b + c + d = 100

/-- The texts display a distribution. -/
def ShowsDistribution (v : Votes) (result : List String) : Prop :=
  ∃ a b c d, List.Forall₂ Displays result [a, b, c, d] ∧ IsDistribution v a b c d

/-! ## Roundings -/

/-- The percentage with two decimals, of a share with 20 decimals. -/
def roundedPercent (total votes : ℕ) : ℚ :=
  roundHalfUp 2 (roundHalfUp 20 (votes / total) * 100)

/-- What a division into hundredths of a percent leaves. -/
def remainder (total votes : ℕ) : ℕ := 10 ^ 4 * votes % total

/-- The remainder is rounded up: it is half of the total, up to the error of 20 decimals. -/
def RoundsUp (total votes : ℕ) : Prop := (10 ^ 16 - 1) * total ≤ 2 * 10 ^ 16 * remainder total votes

instance (total votes : ℕ) : Decidable (RoundsUp total votes) :=
  inferInstanceAs (Decidable (_ ≤ _))

namespace Votes

/-- The number of shares that are rounded up. -/
def roundedUp (v : Votes) : ℕ :=
  (v.rounded.map fun votes => if RoundsUp v.total votes then 1 else 0).foldl (· + ·) 0

def remainders (v : Votes) : ℕ := (v.rounded.map (remainder v.total)).foldl (· + ·) 0

/-- Rounding up takes no more than the remainders and the votes of the fourth option, and exactly
    the remainders if that has no votes. -/
def Balanced (v : Votes) : Prop :=
  v.roundedUp * v.total ≤ v.remainders + 10 ^ 4 * v.abstain ∧
    (v.abstain = 0 → v.roundedUp * v.total = v.remainders)

instance (v : Votes) : Decidable v.Balanced := inferInstanceAs (Decidable (_ ∧ (_ → _)))

end Votes

variable {total votes : ℕ}

theorem share_nonneg (total votes : ℕ) : (0 : ℚ) ≤ votes / total := by positivity

theorem roundedPercent_nonneg (total votes : ℕ) : 0 ≤ roundedPercent total votes := by
  refine roundHalfUp_nonneg 2 ?_
  have hshare := roundHalfUp_nonneg 20 (share_nonneg total votes)
  positivity

theorem roundedPercent_le (hpos : 0 < total) (hle : votes ≤ total) :
    roundedPercent total votes ≤ 100 := by
  have hshare : (votes / total : ℚ) ≤ 1 := by
    rw [div_le_one (by exact_mod_cast hpos)]
    exact_mod_cast hle
  have hone : roundHalfUp 20 (1 : ℚ) = 1 := roundHalfUp_eq_self ⟨10 ^ 20, by norm_num⟩
  have hhundred : roundHalfUp 2 (100 : ℚ) = 100 := roundHalfUp_eq_self ⟨10000, by norm_num⟩
  have hrounded : roundHalfUp 20 (votes / total : ℚ) ≤ 1 :=
    hone ▸ roundHalfUp_mono (share_nonneg total votes) hshare
  have hnonneg := roundHalfUp_nonneg 20 (share_nonneg total votes)
  calc
    roundedPercent total votes ≤ roundHalfUp 2 100 :=
      roundHalfUp_mono (by positivity) (by linarith)
    _ = 100 := hhundred

/-- The two roundings add up to a little more than half of a hundredth. -/
theorem abs_roundedPercent_sub_le (total votes : ℕ) :
    |roundedPercent total votes - 100 * (votes / total)| ≤ 0.005 + 0.000001 := by
  have hshare := share_nonneg total votes
  have hrounded := roundHalfUp_nonneg 20 hshare
  have hfirst := abs_roundHalfUp_sub_le 20 hshare
  have hsecond := abs_roundHalfUp_sub_le 2
    (show 0 ≤ roundHalfUp 20 (votes / total : ℚ) * 100 by positivity)
  rw [abs_le] at hfirst hsecond ⊢
  unfold roundedPercent
  norm_num at hfirst hsecond ⊢
  constructor
  · linarith
  · linarith

theorem roundedPercent_zero (total : ℕ) : roundedPercent total 0 = 0 := by
  have hzero (dp : ℕ) : roundHalfUp dp 0 = 0 := roundHalfUp_eq_self ⟨0, by simp⟩
  rw [roundedPercent, Nat.cast_zero, zero_div, hzero, zero_mul, hzero]

theorem roundedPercent_isShare (hpos : 0 < total) (hle : votes ≤ total) :
    IsShare total votes (roundedPercent total votes) where
  nonneg := roundedPercent_nonneg total votes
  le := roundedPercent_le hpos hle
  near := (abs_roundedPercent_sub_le total votes).trans (by norm_num)
  zero hzero := by rw [hzero, roundedPercent_zero]

/-- The division into hundredths of a percent. -/
theorem hundredths_add_remainder (total votes : ℕ) :
    10 ^ 4 * (votes : ℚ) = (10 ^ 4 * votes / total : ℕ) * total + remainder total votes := by
  have hdivmod := Nat.div_add_mod' (10 ^ 4 * votes) total
  unfold remainder
  exact_mod_cast hdivmod.symm

/-- The further decimals of a remainder, as an integer. -/
def roundedRemainder (total votes : ℕ) : ℤ := round (10 ^ 16 * (remainder total votes : ℚ) / total)

theorem roundedRemainder_eq (total votes : ℕ) :
    roundedRemainder total votes = ⌊10 ^ 16 * (remainder total votes : ℚ) / total + 1 / 2⌋ := by
  rw [roundedRemainder, round_eq]

theorem roundedRemainder_nonneg (total votes : ℕ) : 0 ≤ roundedRemainder total votes := by
  rw [roundedRemainder_eq]
  exact Int.floor_nonneg.2 (by positivity)

theorem roundedRemainder_le (hpos : 0 < total) : roundedRemainder total votes ≤ 10 ^ 16 := by
  have htotal : (0 : ℚ) < total := by exact_mod_cast hpos
  have hlt : (remainder total votes : ℚ) ≤ total := by
    exact_mod_cast (Nat.mod_lt _ hpos).le
  have hdiv : 10 ^ 16 * (remainder total votes : ℚ) / total ≤ 10 ^ 16 := by
    rw [div_le_iff₀ htotal]
    gcongr
  rw [← Int.lt_add_one_iff, roundedRemainder_eq, Int.floor_lt]
  push_cast
  linarith

/-- A remainder is rounded up if its further decimals are at least a half. -/
theorem roundsUp_iff (hpos : 0 < total) :
    RoundsUp total votes ↔ 5 * 10 ^ 15 ≤ roundedRemainder total votes := by
  have htotal : (0 : ℚ) < total := by exact_mod_cast hpos
  have hcast : RoundsUp total votes ↔
      (10 ^ 16 - 1) * (total : ℚ) ≤ 2 * 10 ^ 16 * remainder total votes := by
    unfold RoundsUp
    rw [← Nat.cast_le (α := ℚ)]
    push_cast
    norm_num
  rw [hcast, roundedRemainder_eq, Int.le_floor]
  push_cast
  rw [← sub_le_iff_le_add, le_div_iff₀ htotal]
  constructor
  · intro h
    linarith
  · intro h
    linarith

/-- What is left behind 20 decimals decides whether the second rounding is up. -/
theorem round_roundedRemainder (hpos : 0 < total) :
    round ((roundedRemainder total votes : ℚ) / 10 ^ 16) =
      if RoundsUp total votes then 1 else 0 := by
  have hnonneg : (0 : ℚ) ≤ roundedRemainder total votes := by
    exact_mod_cast roundedRemainder_nonneg total votes
  have hle : (roundedRemainder total votes : ℚ) ≤ 10 ^ 16 := by
    exact_mod_cast roundedRemainder_le hpos
  rw [round_eq_iff]
  by_cases h : RoundsUp total votes
  · have hhalf : (5 * 10 ^ 15 : ℚ) ≤ roundedRemainder total votes := by
      exact_mod_cast (roundsUp_iff hpos).1 h
    rw [if_pos h]
    constructor
    · norm_num at hhalf ⊢
      linarith
    · norm_num at hle ⊢
      linarith
  · have hhalf : (roundedRemainder total votes : ℚ) < 5 * 10 ^ 15 := by
      exact_mod_cast not_le.1 (mt (roundsUp_iff hpos).2 h)
    have hdiv : (0 : ℚ) ≤ (roundedRemainder total votes : ℚ) / 10 ^ 16 := by positivity
    rw [if_neg h]
    constructor
    · rw [Int.cast_zero]
      linarith
    · norm_num at hhalf ⊢
      linarith

/-- **The hundredths of a percentage** are those of the division, with one more if the remainder
    is rounded up. -/
theorem hundredths_eq (hpos : 0 < total) : roundedPercent total votes * 100 =
    (10 ^ 4 * votes / total : ℕ) + if RoundsUp total votes then 1 else 0 := by
  have htotal : (total : ℚ) ≠ 0 := by exact_mod_cast hpos.ne'
  have hsplit := hundredths_add_remainder total votes
  obtain ⟨k, hk⟩ : ∃ k, k = 10 ^ 4 * votes / total := ⟨_, rfl⟩
  rw [← hk] at hsplit ⊢
  have hfirst : (votes / total : ℚ) * 10 ^ 20 =
      ((10 ^ 16 * k : ℤ) : ℚ) + 10 ^ 16 * (remainder total votes : ℚ) / total := by
    have hvotes : (votes : ℚ) = (k * total + remainder total votes) / 10 ^ 4 := by
      rw [← hsplit]
      field_simp
    rw [hvotes]
    push_cast
    field_simp
    ring
  have hsecond : roundHalfUp 20 (votes / total : ℚ) * 100 * 10 ^ 2 = ((k : ℤ) : ℚ) +
      (roundedRemainder total votes : ℚ) / 10 ^ 16 := by
    rw [roundHalfUp_of_nonneg (share_nonneg total votes), hfirst, round_intCast_add,
      roundedRemainder]
    push_cast
    ring
  have hnonneg := roundHalfUp_nonneg 20 (share_nonneg total votes)
  rw [roundedPercent, roundHalfUp_of_nonneg (by positivity), hsecond, round_intCast_add,
    round_roundedRemainder hpos]
  push_cast
  split_ifs
  · ring
  · ring

/-! ## The fourth percentage -/

/-- The percentage that remains. -/
def restPercent (v : Votes) : ℚ :=
  100 - roundedPercent v.total v.yes - roundedPercent v.total v.no -
    roundedPercent v.total v.noWithVeto

/-- It has two decimals. -/
theorem roundHalfUp_restPercent (v : Votes) (hpos : 0 < v.total) :
    roundHalfUp 2 (restPercent v) = restPercent v := by
  have hint (votes : ℕ) : ∃ n : ℤ, roundedPercent v.total votes * 10 ^ 2 = n := by
    refine ⟨(10 ^ 4 * votes / v.total : ℕ) + if RoundsUp v.total votes then 1 else 0, ?_⟩
    have h : roundedPercent v.total votes * 100 = _ := hundredths_eq hpos
    norm_num at h ⊢
    exact h
  obtain ⟨a, ha⟩ := hint v.yes
  obtain ⟨b, hb⟩ := hint v.no
  obtain ⟨c, hc⟩ := hint v.noWithVeto
  refine roundHalfUp_eq_self ⟨10000 - a - b - c, ?_⟩
  rw [restPercent, sub_mul, sub_mul, sub_mul, ha, hb, hc]
  push_cast
  norm_num

/-- **What remains** is the share of the fourth option and the remainders, less what is rounded
    up. -/
theorem total_mul_restPercent (v : Votes) (hpos : 0 < v.total) :
    v.total * (restPercent v * 100) =
      (v.remainders : ℚ) + 10 ^ 4 * v.abstain - v.roundedUp * v.total := by
  have hsplit (votes : ℕ) : v.total * (roundedPercent v.total votes * 100) =
      10 ^ 4 * (votes : ℚ) - remainder v.total votes +
        v.total * if RoundsUp v.total votes then 1 else 0 := by
    rw [hundredths_eq hpos, hundredths_add_remainder v.total votes]
    ring
  have hremainders : (v.remainders : ℚ) = remainder v.total v.yes + remainder v.total v.no +
      remainder v.total v.noWithVeto := by
    simp [Votes.remainders, Votes.rounded]
  have hroundedUp : (v.roundedUp : ℚ) = (if RoundsUp v.total v.yes then 1 else 0) +
      (if RoundsUp v.total v.no then 1 else 0) +
      if RoundsUp v.total v.noWithVeto then 1 else 0 := by
    simp [Votes.roundedUp, Votes.rounded]
  have hyes := hsplit v.yes
  have hno := hsplit v.no
  have hveto := hsplit v.noWithVeto
  rw [hremainders, hroundedUp]
  unfold restPercent
  calc
    v.total * ((100 - roundedPercent v.total v.yes - roundedPercent v.total v.no -
        roundedPercent v.total v.noWithVeto) * 100) =
      10 ^ 4 * (v.total : ℚ) - v.total * (roundedPercent v.total v.yes * 100) -
        v.total * (roundedPercent v.total v.no * 100) -
        v.total * (roundedPercent v.total v.noWithVeto * 100) := by ring
    _ = _ := by
      rw [hyes, hno, hveto, v.cast_total]
      ring

theorem restPercent_le (v : Votes) : restPercent v ≤ 100 := by
  have hyes := roundedPercent_nonneg v.total v.yes
  have hno := roundedPercent_nonneg v.total v.no
  have hveto := roundedPercent_nonneg v.total v.noWithVeto
  unfold restPercent
  linarith

/-- The errors of three percentages. -/
theorem abs_restPercent_sub_le (v : Votes) (hpos : 0 < v.total) :
    |restPercent v - 100 * (v.abstain / v.total)| ≤ 0.02 := by
  have hyes := abs_le.1 (abs_roundedPercent_sub_le v.total v.yes)
  have hno := abs_le.1 (abs_roundedPercent_sub_le v.total v.no)
  have hveto := abs_le.1 (abs_roundedPercent_sub_le v.total v.noWithVeto)
  have htotal : (v.total : ℚ) ≠ 0 := by exact_mod_cast hpos.ne'
  have hone : (v.yes / v.total : ℚ) + v.no / v.total + v.noWithVeto / v.total +
      v.abstain / v.total = 1 := by
    rw [← add_div, ← add_div, ← add_div, ← v.cast_total, div_self htotal]
  unfold restPercent
  rw [abs_le]
  norm_num at hyes hno hveto ⊢
  constructor
  · linarith
  · linarith

/-- What remains is a percentage of the fourth option iff the votes are balanced. -/
theorem restPercent_isShare_iff (v : Votes) (hpos : 0 < v.total) :
    IsShare v.total v.abstain (restPercent v) ↔ v.Balanced := by
  have htotal : (0 : ℚ) < v.total := by exact_mod_cast hpos
  have hrest := total_mul_restPercent v hpos
  constructor
  · intro habstain
    constructor
    · have hnonneg : 0 ≤ v.total * (restPercent v * 100) := by
        have := habstain.nonneg
        positivity
      rw [hrest, sub_nonneg] at hnonneg
      exact_mod_cast hnonneg
    · intro hzero
      rw [habstain.zero hzero, hzero, zero_mul, mul_zero, Nat.cast_zero, mul_zero, add_zero,
        eq_comm, sub_eq_zero, eq_comm] at hrest
      exact_mod_cast hrest
  · rintro ⟨hnonneg, hzero⟩
    refine ⟨?_, restPercent_le v, abs_restPercent_sub_le v hpos, ?_⟩
    · have hcast : (v.roundedUp * v.total : ℚ) ≤ v.remainders + 10 ^ 4 * v.abstain := by
        exact_mod_cast hnonneg
      have hmul : 0 ≤ v.total * (restPercent v * 100) := by
        rw [hrest]
        linarith
      have hpercent := nonneg_of_mul_nonneg_right hmul htotal
      linarith
    · intro habstain
      have hcast : (v.roundedUp * v.total : ℚ) = v.remainders := by
        exact_mod_cast hzero habstain
      rw [habstain, hcast, Nat.cast_zero, mul_zero, add_zero, sub_self, mul_eq_zero] at hrest
      have hpercent := hrest.resolve_left htotal.ne'
      linarith

/-- **The percentages of some votes** are a distribution iff the votes are balanced. -/
theorem isDistribution_iff (v : Votes) (hpos : 0 < v.total) :
    IsDistribution v (roundedPercent v.total v.yes) (roundedPercent v.total v.no)
      (roundedPercent v.total v.noWithVeto) (restPercent v) ↔ v.Balanced := by
  rw [← restPercent_isShare_iff v hpos]
  constructor
  · intro h
    exact h.abstain
  · intro habstain
    have hle : v.yes ≤ v.total ∧ v.no ≤ v.total ∧ v.noWithVeto ≤ v.total := by
      unfold Votes.total
      omega
    refine ⟨roundedPercent_isShare hpos hle.1, roundedPercent_isShare hpos hle.2.1,
      roundedPercent_isShare hpos hle.2.2, habstain, ?_⟩
    unfold restPercent
    ring

/-! ## The texts -/

variable {J : BigJs} {tally : FinalTallyResult} {v : Votes}

theorem votePercent_eq {n t : J.Big} (hn : J.val n = votes) (ht : J.val t = total)
    (hpos : 0 < total) :
    ∃ p, votePercent J n t = some p ∧ J.val p = roundedPercent total votes := by
  have hne : J.val t ≠ 0 := by
    rw [ht]
    exact_mod_cast hpos.ne'
  obtain ⟨share, hdiv, hshare⟩ := J.div_eq n t hne
  refine ⟨_, by rw [votePercent, hdiv]; rfl, ?_⟩
  rw [J.val_round, J.val_mul, hshare, hn, ht, J.val_ofNat 100 (by decide)]
  rfl

/-- **The texts are those of the percentages.** -/
theorem getVotingPercent_eq (J : BigJs) (h : tally.Denotes v) (hpos : 0 < v.total) :
    ∃ percent, getVotingPercent J (some tally) = some percent ∧
      List.Forall₂ Displays percent.result [roundedPercent v.total v.yes,
        roundedPercent v.total v.no, roundedPercent v.total v.noWithVeto, restPercent v] := by
  obtain ⟨yes, hyes, hyes'⟩ := J.ofString_digits _ h.yes.1
  obtain ⟨no, hno, hno'⟩ := J.ofString_digits _ h.no.1
  obtain ⟨noWithVeto, hveto, hveto'⟩ := J.ofString_digits _ h.noWithVeto.1
  obtain ⟨abstain, habstain, habstain'⟩ := J.ofString_digits _ h.abstain.1
  rw [h.yes.2] at hyes'
  rw [h.no.2] at hno'
  rw [h.noWithVeto.2] at hveto'
  rw [h.abstain.2] at habstain'
  obtain ⟨total, htotal⟩ :
    ∃ total, total = J.add (J.add (J.add yes no) noWithVeto) abstain := ⟨_, rfl⟩
  have hval : J.val total = v.total := by
    rw [htotal, J.val_add, J.val_add, J.val_add, hyes', hno', hveto', habstain', v.cast_total]
  have hne : ¬ J.eq total (J.ofNat 0) = true := by
    rw [J.eq_iff, hval, J.val_ofNat 0 (by decide)]
    exact_mod_cast hpos.ne'
  obtain ⟨a, ha, ha'⟩ := votePercent_eq hyes' hval hpos
  obtain ⟨b, hb, hb'⟩ := votePercent_eq hno' hval hpos
  obtain ⟨c, hc, hc'⟩ := votePercent_eq hveto' hval hpos
  obtain ⟨d, hd⟩ :
    ∃ d, d = J.round 2 (J.sub (J.sub (J.sub (J.ofNat 100) a) b) c) := ⟨_, rfl⟩
  have hd' : J.val d = restPercent v := by
    rw [hd, J.val_round, J.val_sub, J.val_sub, J.val_sub, ha', hb', hc',
      J.val_ofNat 100 (by decide)]
    exact roundHalfUp_restPercent v hpos
  obtain ⟨sa, hsa, ha''⟩ := formatNumber_big a
  obtain ⟨sb, hsb, hb''⟩ := formatNumber_big b
  obtain ⟨sc, hsc, hc''⟩ := formatNumber_big c
  obtain ⟨sd, hsd, hd''⟩ := formatNumber_big d
  refine ⟨⟨[sa, sb, sc, sd], maxVotes J [yes, no, noWithVeto, abstain]⟩, ?_, ?_⟩
  · unfold getVotingPercent
    dsimp only
    rw [hyes, hno, hveto, habstain]
    simp only [Option.bind_eq_bind, Option.bind_some]
    rw [← htotal, if_neg hne, ha, hb, hc]
    simp only [Option.bind_some]
    rw [← hd]
    simp only [List.mapM_cons, List.mapM_nil, hsa, hsb, hsc, hsd]
    rfl
  · rw [← ha', ← hb', ← hc', ← hd']
    exact .cons ha'' (.cons hb'' (.cons hc'' (.cons hd'' .nil)))

example : (getVotingPercent default (some ⟨"1", "1", "4", "0"⟩)).map VotingPercent.result =
    some ["16.67", "16.67", "66.67", "-0.01"] := by decide +kernel

/-- Texts of percentages show a distribution iff these are one. -/
theorem showsDistribution_iff {result : List String} {a b c d : ℚ}
    (h : List.Forall₂ Displays result [a, b, c, d]) :
    ShowsDistribution v result ↔ IsDistribution v a b c d := by
  constructor
  · rintro ⟨a', b', c', d', h', hdistribution⟩
    rcases h with - | ⟨ha, - | ⟨hb, - | ⟨hc, - | ⟨hd, -⟩⟩⟩⟩
    rcases h' with - | ⟨ha', - | ⟨hb', - | ⟨hc', - | ⟨hd', -⟩⟩⟩⟩
    rwa [ha.unique ha', hb.unique hb', hc.unique hc', hd.unique hd']
  · intro hdistribution
    exact ⟨a, b, c, d, h, hdistribution⟩

/-- **Vote percentages are a distribution** iff rounding the first three options up takes no more
    than their remainders and the votes of the fourth. -/
theorem getVotingPercent_distribution_iff (J : BigJs) (tally : FinalTallyResult) (v : Votes)
    (h : tally.Denotes v) (hpos : 0 < v.total) :
    ∃ percent, getVotingPercent J (some tally) = some percent ∧
      (ShowsDistribution v percent.result ↔ v.Balanced) := by
  obtain ⟨percent, hpercent, hresult⟩ := getVotingPercent_eq J h hpos
  refine ⟨percent, hpercent, ?_⟩
  rw [showsDistribution_iff hresult, isDistribution_iff v hpos]

/-! ## Tallies -/

theorem denotes_toString (v : Votes) : FinalTallyResult.Denotes
    ⟨toString v.yes, toString v.no, toString v.noWithVeto, toString v.abstain⟩ v where
  yes := ⟨isDigits_toString _, readDigits_toString _⟩
  no := ⟨isDigits_toString _, readDigits_toString _⟩
  noWithVeto := ⟨isDigits_toString _, readDigits_toString _⟩
  abstain := ⟨isDigits_toString _, readDigits_toString _⟩

/-- One vote for every option. -/
theorem distribution_one_each : ∃ percent,
    getVotingPercent default (some ⟨"1", "1", "1", "1"⟩) = some percent ∧
      ShowsDistribution ⟨1, 1, 1, 1⟩ percent.result := by
  obtain ⟨percent, hpercent, hiff⟩ := getVotingPercent_distribution_iff default
    ⟨"1", "1", "1", "1"⟩ ⟨1, 1, 1, 1⟩ (denotes_toString ⟨1, 1, 1, 1⟩) (by decide)
  exact ⟨percent, hpercent, hiff.2 (by decide)⟩

/-- **Percentages may be negative**: of the votes 1, 1, 4 and 0, all three shares are rounded up,
    and the option without votes has -0.01 percent. -/
theorem distribution_counterexample :
    ¬ ∀ (J : BigJs) (tally : FinalTallyResult) (v : Votes), tally.Denotes v → 0 < v.total →
      ∃ percent, getVotingPercent J (some tally) = some percent ∧
        ShowsDistribution v percent.result := by
  intro h
  have hdenotes := denotes_toString ⟨1, 1, 4, 0⟩
  obtain ⟨percent, hpercent, hshows⟩ := h default _ _ hdenotes (by decide)
  obtain ⟨percent', hpercent', hresult⟩ := getVotingPercent_eq default hdenotes (by decide)
  obtain rfl := Option.some.inj (hpercent.symm.trans hpercent')
  have hbalanced := (isDistribution_iff ⟨1, 1, 4, 0⟩ (by decide)).1
    ((showsDistribution_iff hresult).1 hshows)
  exact absurd hbalanced (by decide)

end RollappExplorer
