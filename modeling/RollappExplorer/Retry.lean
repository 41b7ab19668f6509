/-
  Retried queries (`services/query/retry.go`).

  * `Clock`: what the loop reads of the wall clock, with at least 100 ms between two attempts;
  * `leftIn_iff`: the attempt the loop stops on, and what it returns of it;
  * `beJsonRpcQueryWithRetry_terminates`: it stops, with the result of a success or the error
    of a query that used up its attempts and its time, or was not to be retried;
  * `blackList_reported_iff`: it returns the error of the first attempt, so a black-listed answer
    is reported as black-listed only if the first answer was.
-/
import RollappExplorer.Effect.Loop
import RollappExplorer.Indexing

namespace RollappExplorer

open Go Effect

/-! ## Options and clocks -/

/-- In nanoseconds, as all durations. -/
def millisecond : ℤ := 1000000

def second : ℤ := 1000 * millisecond

structure RetryOption where
  minRetryCount : ℤ
  maximumRetryDuration : ℤ

def defaultRetryOption : RetryOption := ⟨3, 5 * second⟩

def RetryOption.minCount (m : RetryOption) (minRetryCount : ℤ) : RetryOption :=
  { m with minRetryCount := minRetryCount }

def RetryOption.maxDuration (m : RetryOption) (maximumRetryDuration : ℤ) : RetryOption :=
  { m with maximumRetryDuration := maximumRetryDuration }

/-- The times of a call: its start, the sleep after the attempt `i`, and the moment after the
    attempt `i` at which its duration so far is compared with the maximum. -/
structure Clock where
  start : ℤ
  checked : ℕ → ℤ
  asleep : ℕ → ℤ
  awake : ℕ → ℤ
  start_le : start ≤ checked 0
  checked_le : ∀ i, checked i ≤ asleep i
  sleep : ∀ i, asleep i + 100 * millisecond ≤ awake i
  awake_le : ∀ i, awake i ≤ checked (i + 1)

/-- `time.Since(startTime)` after the attempt `i` -/
def Clock.since (clock : Clock) (i : ℕ) : ℤ := clock.checked i - clock.start

/-- Every sleep takes its time. -/
theorem Clock.le_since (clock : Clock) (i : ℕ) : i * (100 * millisecond) ≤ clock.since i := by
  induction i with
  | zero => simpa [Clock.since] using clock.start_le
  | succ i ih =>
    have h₁ := clock.checked_le i
    have h₂ := clock.sleep i
    have h₃ := clock.awake_le i
    unfold Clock.since millisecond at *
    push_cast
    omega

/-! ## The loop -/

variable {α : Type}

/-- What one call of the query returns. -/
structure Attempt (α : Type) where
  res : α
  duration : ℤ
  err : Option Error

def isErrResponseValidationFailed (err : Error) : Bool := contains err errResponseValidationFailed

/-- The errors that are not retried. -/
def isErrNotRetried (err : Error) : Bool :=
  isErrResponseValidationFailed err || contains err "connection refused" ||
    (contains err "-32601" && contains err "not available") || contains err "-32602"

/-- A wrapped error contains the text of the error and of the message. -/
theorem contains_wrap {err sub : Error} {msg : String}
    (h : contains err sub = true ∨ contains msg sub = true) :
    contains (wrap err msg) sub = true := by
  unfold contains at h ⊢
  simp only [decide_eq_true_eq] at h ⊢
  rw [wrap, String.toList_append]
  rcases h with h | h
  · exact h.trans (List.suffix_append _ _).isInfix
  · rw [String.toList_append, List.append_assoc]
    exact h.trans (List.prefix_append _ _).isInfix

theorem contains_self (err : Error) : contains err err = true :=
  decide_eq_true (List.infix_refl _)

/-- A response that fails its validation is not asked for again. -/
theorem isErrNotRetried_newErrResponseValidationFailedFrom (err : Error) :
    isErrNotRetried (newErrResponseValidationFailedFrom err) = true := by
  have h : isErrResponseValidationFailed (newErrResponseValidationFailedFrom err) = true :=
    contains_wrap (Or.inl (contains_self _))
  simp only [isErrNotRetried, h, Bool.true_or]

/-- Black-listed errors stay so in every layer of wrapping. -/
theorem isErrBlackList_wrap {err : Error} (h : isErrBlackList err = true) (msg : String) :
    isErrBlackList (wrap err msg) = true :=
  contains_wrap (Or.inl h)

theorem isErrBlackList_newErrResponseValidationFailedFrom {err : Error}
    (h : isErrBlackList err = true) :
    isErrBlackList (newErrResponseValidationFailedFrom err) = true :=
  contains_wrap (Or.inr h)

structure RetryState where
  tryCount : ℤ
  firstErr : Option Error

/-- One pass of the loop. -/
def retry (retryOption : RetryOption) (f : ℕ → Attempt α) (clock : Clock) (s : RetryState) :
    RetryState ⊕ Attempt α :=
  let tryCount := s.tryCount + 1
  let attempt := f tryCount.toNat
  match attempt.err with
  | none => .inr attempt
  | some err =>
    let firstErr := s.firstErr.or (some err)
    let failed := { attempt with err := firstErr }
    if isErrNotRetried err then .inr failed
    else if tryCount < retryOption.minRetryCount then .inl ⟨tryCount, firstErr⟩
    else if clock.since tryCount.toNat < retryOption.maximumRetryDuration then
      .inl ⟨tryCount, firstErr⟩
    else .inr failed

/-- The option of a call, the default one if none is given. -/
def chosen (retryOption : List RetryOption) : RetryOption := retryOption.headD defaultRetryOption

/-- `BeJsonRpcQueryWithRetry`, where `f i` is what the attempt `i` returns; its fuel is the number
    of attempts. -/
def beJsonRpcQueryWithRetry (f : ℕ → Attempt α) (retryOption : List RetryOption) (clock : Clock) :
    Effect.Computation (Attempt α) :=
  loop (retry (chosen retryOption) f clock) ⟨-1, none⟩

/-- The attempts and the time that the option grants are used up after the attempt `i`. -/
def UsedUp (retryOption : RetryOption) (clock : Clock) (i : ℕ) : Prop :=
  retryOption.minRetryCount ≤ i ∧ retryOption.maximumRetryDuration ≤ clock.since i

/-- The loop does not go on after the attempt `i`. -/
def Stops (retryOption : RetryOption) (f : ℕ → Attempt α) (clock : Clock) (i : ℕ) : Prop :=
  ∀ err, (f i).err = some err → isErrNotRetried err = true ∨ UsedUp retryOption clock i

/-- What is returned after the attempt `i`: the attempt, with the error of the first one. -/
def reported (f : ℕ → Attempt α) (i : ℕ) : Attempt α :=
  { f i with err := (f i).err.bind fun _ => (f 0).err }

variable {retryOption : RetryOption} {f : ℕ → Attempt α} {clock : Clock}

/-- The error that is remembered before the attempt `i`. -/
def firstErr (f : ℕ → Attempt α) : ℕ → Option Error
  | 0 => none
  | i + 1 => (firstErr f i).or (f i).err

/-- The state before the attempt `i`. -/
def before (f : ℕ → Attempt α) (i : ℕ) : RetryState := ⟨i - 1, firstErr f i⟩

theorem retry_stops {i : ℕ} (h : Stops retryOption f clock i) :
    retry retryOption f clock (before f i) =
      .inr { f i with err := (f i).err.bind fun _ => firstErr f (i + 1) } := by
  have hcount : (i : ℤ) - 1 + 1 = i := by omega
  unfold retry
  simp only [before, hcount, Int.toNat_natCast]
  cases he : (f i).err with
  | none =>
    show Sum.inr (f i) = .inr ⟨(f i).res, (f i).duration, none⟩
    rw [← he]
  | some err =>
    simp only [firstErr, he, Option.bind_some]
    rcases h err he with hn | ⟨hmin, hmax⟩
    · rw [if_pos hn]
    · rw [if_neg (not_lt.2 hmin), if_neg (not_lt.2 hmax), ite_self]

theorem retry_goesOn {i : ℕ} (h : ¬ Stops retryOption f clock i) :
    retry retryOption f clock (before f i) = .inl (before f (i + 1)) := by
  have hcount : (i : ℤ) - 1 + 1 = i := by omega
  have hnext : ((i + 1 : ℕ) : ℤ) - 1 = i := by omega
  simp only [Stops, UsedUp, not_forall, not_or, not_and_or, not_le] at h
  obtain ⟨err, he, hn, hleft⟩ := h
  unfold retry
  simp only [before, hcount, hnext, Int.toNat_natCast, he, firstErr, if_neg hn]
  rcases hleft with hmin | hmax
  · rw [if_pos hmin]
  · rw [if_pos hmax, ite_self]

/-- Before the loop stops, every attempt failed, and the first error was remembered. -/
theorem firstErr_of_isFirst {n : ℕ} (hn : IsFirst (Stops retryOption f clock) n) :
    ((f n).err.bind fun _ => firstErr f (n + 1)) = (f n).err.bind fun _ => (f 0).err := by
  cases he : (f n).err with
  | none => rfl
  | some err =>
    have hfail : ∃ err, (f 0).err = some err := by
      cases n with
      | zero => exact ⟨err, he⟩
      | succ n =>
        have hstops := hn.first 0 (Nat.succ_pos n)
        simp only [Stops, not_forall] at hstops
        obtain ⟨err, he, -⟩ := hstops
        exact ⟨err, he⟩
    obtain ⟨err₀, he₀⟩ := hfail
    have hfirst : ∀ i, firstErr f (i + 1) = some err₀ := by
      intro i
      induction i with
      | zero => exact he₀
      | succ i ih => rw [firstErr, ih, Option.some_or]
    exact (hfirst n).trans he₀.symm

/-- **The loop** is left after the first attempt that it does not go on after. -/
theorem leftIn_iff {options : List RetryOption} {n : ℕ} {a : Attempt α} :
    (beJsonRpcQueryWithRetry f options clock).LeftIn n a ↔
      IsFirst (Stops (chosen options) f clock) n ∧ a = reported f n := by
  have hleave : ∀ i, Stops (chosen options) f clock i → _ := fun _ => retry_stops
  have hagain : ∀ i, ¬ Stops (chosen options) f clock i → _ := fun _ => retry_goesOn
  refine (leftIn_loop_iff hleave hagain).trans (and_congr_right fun hn => ?_)
  rw [firstErr_of_isFirst hn]
  rfl

/-- The time alone ends the loop, once the attempts are used up. -/
theorem exists_usedUp (retryOption : RetryOption) (clock : Clock) :
    ∃ i, UsedUp retryOption clock i := by
  have hsince := clock.le_since
    (max retryOption.minRetryCount.toNat retryOption.maximumRetryDuration.toNat)
  unfold millisecond at hsince
  refine ⟨max retryOption.minRetryCount.toNat retryOption.maximumRetryDuration.toNat, ?_⟩
  constructor <;> omega

/-- **The retry loop ends and keeps its promises.** -/
theorem beJsonRpcQueryWithRetry_terminates (f : ℕ → Attempt α) (options : List RetryOption)
    (clock : Clock) :
    ∃ n a, (beJsonRpcQueryWithRetry f options clock).LeftIn n a ∧
      (∀ i ≤ n, (f i).err = none → a = f i) ∧
      (∀ err, a.err = some err →
        (∃ last, (f n).err = some last ∧ isErrNotRetried last = true) ∨
        ((chosen options).minRetryCount + 1 ≤ (n + 1 : ℕ) ∧
          (chosen options).maximumRetryDuration ≤ clock.since n)) := by
  obtain ⟨i, hi⟩ := exists_usedUp (chosen options) clock
  obtain ⟨n, -, hn⟩ := exists_isFirst (p := Stops (chosen options) f clock) (n := i)
    fun err _ => Or.inr hi
  refine ⟨n, reported f n, leftIn_iff.2 ⟨hn, rfl⟩, ?_, ?_⟩
  · intro i hi hsuccess
    have hstops : Stops (chosen options) f clock i := fun err he => by
      cases hsuccess.symm.trans he
    obtain rfl : i = n := by
      rcases Nat.lt_or_eq_of_le hi with hlt | rfl
      · exact absurd hstops (hn.first i hlt)
      · rfl
    simp only [reported, hsuccess, Option.bind_none]
    rw [← hsuccess]
  · intro err he
    cases hlast : (f n).err with
    | none => simp [reported, hlast] at he
    | some last =>
      rcases hn.holds last hlast with h | ⟨hmin, hmax⟩
      · exact Or.inl ⟨last, rfl, h⟩
      · exact Or.inr ⟨by omega, hmax⟩

/-! ## Black-listed answers -/

/-- The query failed with an error that black-lists the URL. -/
def BlackListed (err : Option Error) : Prop := ∃ e, err = some e ∧ isErrBlackList e = true

/-- `fetchAndIndexingBlockRange` resets the active URL when its query returns the error. -/
def ResetsOn {R : Type} (d : Indexer R) (nextBlockToIndexFrom nextBlockToIndexTo : ℤ)
    (err : Error) : Prop :=
  ∃ k, fetchAndIndexingBlockRange d nextBlockToIndexFrom nextBlockToIndexTo =
      .call (.beTransactionsInBlockRange nextBlockToIndexFrom nextBlockToIndexTo) k ∧
    k (.error err) = .call .forceResetActiveJsonRpcUrl fun _ => .ret ⟨some err, false⟩

theorem resetsOn_iff {R : Type} {d : Indexer R} {x y : ℤ} {err : Error} :
    ResetsOn d x y err ↔ isErrBlackList err = true := by
  constructor
  · rintro ⟨k, hcall, hk⟩
    by_contra hnot
    obtain rfl := eq_of_heq (Prog.call.inj hcall).2
    have hk' : (if isErrBlackList err = true then
        Prog.call (S := sig) .forceResetActiveJsonRpcUrl fun _ => .ret (FetchResult.mk err false)
        else .ret ⟨err, true⟩) = .call .forceResetActiveJsonRpcUrl fun _ => .ret ⟨err, false⟩ := hk
    rw [if_neg hnot] at hk'
    cases hk'
  · intro h
    refine ⟨_, rfl, ?_⟩
    show (if isErrBlackList err = true then _ else _) = _
    rw [if_pos h]
    rfl

/-- **Black-listed answers** are reported as black-listed, and reset the active URL, iff the first
    answer was black-listed as well. -/
theorem blackList_reported_iff {R : Type} (f : ℕ → Attempt α) (options : List RetryOption)
    (clock : Clock) (d : Indexer R) (x y : ℤ) :
    ∃ n a, (beJsonRpcQueryWithRetry f options clock).LeftIn n a ∧
      ((BlackListed (f n).err → ∃ err, a.err = some err ∧ isErrBlackList err = true ∧
          ResetsOn d x y err) ↔
        (BlackListed (f n).err → BlackListed (f 0).err)) := by
  obtain ⟨i, hi⟩ := exists_usedUp (chosen options) clock
  obtain ⟨n, -, hn⟩ := exists_isFirst (p := Stops (chosen options) f clock) (n := i)
    fun err _ => Or.inr hi
  refine ⟨n, reported f n, leftIn_iff.2 ⟨hn, rfl⟩, imp_congr_right fun hlast => ?_⟩
  obtain ⟨last, hlast, -⟩ := hlast
  have herr : (reported f n).err = (f 0).err := by simp [reported, hlast]
  rw [herr]
  exact exists_congr fun err => and_congr_right fun _ =>
    ⟨fun h => h.1, fun h => ⟨h, resetsOn_iff.2 h⟩⟩

/-! A query that fails with a network error first, and then answers with a block of too many
transactions. -/

/-- The option of the query in `fetchAndIndexingBlockRange`. -/
def fetchRetryOption : RetryOption := (defaultRetryOption.minCount 5).maxDuration (30 * second)

def malformedErr : Error :=
  newErrResponseValidationFailedFrom
    (wrap errBlackListDueToMalformedResponse "too many txs 101, maximum allowed 100 [7]")

def networkThenMalformed : ℕ → Attempt Unit
  | 0 => ⟨(), 20 * millisecond, some "read: connection reset by peer"⟩
  | _ => ⟨(), 20 * millisecond, some malformedErr⟩

/-- Every attempt takes 20 ms and every sleep 100 ms. -/
def steadyClock : Clock where
  start := 0
  checked i := i * (120 * millisecond) + 20 * millisecond
  asleep i := i * (120 * millisecond) + 20 * millisecond
  awake i := (i + 1) * (120 * millisecond)
  start_le := by unfold millisecond; omega
  checked_le i := le_rfl
  sleep i := by unfold millisecond; omega
  awake_le i := by unfold millisecond; push_cast; omega

theorem isErrBlackList_malformedErr : isErrBlackList malformedErr = true :=
  isErrBlackList_newErrResponseValidationFailedFrom
    (isErrBlackList_wrap (isErrBlackList_wrap (contains_self _) _) _)

theorem not_blackList_reported :
    ¬ ∀ n a, (beJsonRpcQueryWithRetry networkThenMalformed [fetchRetryOption] steadyClock).LeftIn
        n a → a.err ≠ none → BlackListed (networkThenMalformed n).err → BlackListed a.err := by
  intro h
  have hfirst : IsFirst (Stops fetchRetryOption networkThenMalformed steadyClock) 1 := by
    refine ⟨fun err he => Or.inl ?_, fun m hm hstops => ?_⟩
    · obtain rfl : malformedErr = err := Option.some.inj he
      exact isErrNotRetried_newErrResponseValidationFailedFrom _
    · obtain rfl : m = 0 := by omega
      rcases hstops _ rfl with hnot | ⟨hmin, -⟩
      · revert hnot
        decide
      · revert hmin
        decide
  obtain ⟨err, he, hblack⟩ := h 1 _ (leftIn_iff.2 ⟨hfirst, rfl⟩) (fun he => by cases he)
    ⟨malformedErr, rfl, isErrBlackList_malformedErr⟩
  obtain rfl : "read: connection reset by peer" = err := Option.some.inj he
  revert hblack
  decide

end RollappExplorer
