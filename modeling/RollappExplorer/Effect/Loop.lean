/-
  Computations that may not terminate.

  A computation gives its result once it has enough fuel, and more fuel does not change
  the result.

  * `Computation.returns_bind`: sequencing;
  * `loop`, `leftIn_loop_iff`: a loop with numbered passes is left in the first pass that
    leaves it;
  * `returns_loop_iff`: it is never left if there is none.
-/
import Mathlib.Data.Nat.Find

namespace Effect

variable {α β σ : Type}

structure Computation (α : Type) where
  run : ℕ → Option α
  mono : ∀ n m a, n ≤ m → run n = some a → run m = some a

namespace Computation

/-- The computation terminates with the result. -/
def Returns (x : Computation α) (a : α) : Prop := ∃ n, x.run n = some a

theorem Returns.unique {x : Computation α} {a b : α} (ha : x.Returns a) (hb : x.Returns b) :
    a = b := by
  obtain ⟨n, hn⟩ := ha
  obtain ⟨m, hm⟩ := hb
  have hn' := x.mono n (max n m) a (le_max_left n m) hn
  have hm' := x.mono m (max n m) b (le_max_right n m) hm
  exact Option.some.inj (hn'.symm.trans hm')

/-- The computation terminates with the result, with the fuel `n + 1` and with no less. -/
def LeftIn (x : Computation α) (n : ℕ) (a : α) : Prop := x.run n = none ∧ x.run (n + 1) = some a

theorem returns_iff_leftIn {x : Computation α} (h₀ : x.run 0 = none) {a : α} :
    x.Returns a ↔ ∃ n, x.LeftIn n a := by
  constructor
  · rintro ⟨m, hm⟩
    induction m with
    | zero => cases h₀.symm.trans hm
    | succ m ih =>
      cases hr : x.run m with
      | none => exact ⟨m, hr, hm⟩
      | some b =>
        obtain rfl : b = a := Option.some.inj ((x.mono _ _ _ (Nat.le_succ m) hr).symm.trans hm)
        exact ih hr
  · rintro ⟨n, -, h⟩
    exact ⟨n + 1, h⟩

instance : Monad Computation where
  pure a := ⟨fun _ => some a, fun _ _ _ _ h => h⟩
  bind x f :=
    { run := fun n => (x.run n).bind fun a => (f a).run n
      mono := fun n m b hnm h => by
        obtain ⟨a, ha, hb⟩ := Option.bind_eq_some_iff.1 h
        exact Option.bind_eq_some_iff.2 ⟨a, x.mono n m a hnm ha, (f a).mono n m b hnm hb⟩ }

theorem returns_pure {a b : α} : (pure a : Computation α).Returns b ↔ b = a :=
  ⟨fun ⟨_, h⟩ => (Option.some.inj h).symm, fun h => ⟨0, h ▸ rfl⟩⟩

/-- **Sequencing.** -/
theorem returns_bind {x : Computation α} {f : α → Computation β} {b : β} :
    (x >>= f).Returns b ↔ ∃ a, x.Returns a ∧ (f a).Returns b := by
  constructor
  · rintro ⟨n, h⟩
    obtain ⟨a, ha, hb⟩ := Option.bind_eq_some_iff.1 h
    exact ⟨a, ⟨n, ha⟩, n, hb⟩
  · rintro ⟨a, ⟨n, ha⟩, m, hb⟩
    have ha' := x.mono n (max n m) a (le_max_left n m) ha
    have hb' := (f a).mono m (max n m) b (le_max_right n m) hb
    exact ⟨max n m, Option.bind_eq_some_iff.2 ⟨a, ha', hb'⟩⟩

end Computation

/-! ## Loops -/

/-- At most `n` passes of a loop; a pass goes on with a new state, or leaves the loop. -/
def passes (body : σ → σ ⊕ α) : ℕ → σ → Option α
  | 0, _ => none
  | n + 1, s =>
    match body s with
    | .inl s' => passes body n s'
    | .inr a => some a

theorem passes_mono {body : σ → σ ⊕ α} {n m : ℕ} {s : σ} {a : α} (hnm : n ≤ m)
    (h : passes body n s = some a) : passes body m s = some a := by
  induction n generalizing m s with
  | zero => cases h
  | succ n ih =>
    obtain ⟨m, rfl⟩ : ∃ m', m = m' + 1 := ⟨m - 1, by omega⟩
    unfold passes at h ⊢
    cases hb : body s with
    | inl s' =>
      rw [hb] at h
      exact ih (Nat.le_of_succ_le_succ hnm) h
    | inr b =>
      rw [hb] at h
      exact h

def loop (body : σ → σ ⊕ α) (s : σ) : Computation α where
  run n := passes body n s
  mono _ _ _ hnm h := passes_mono hnm h

/-- The first number with the property. -/
structure IsFirst (p : ℕ → Prop) (n : ℕ) : Prop where
  holds : p n
  first : ∀ m < n, ¬ p m

theorem exists_isFirst {p : ℕ → Prop} {n : ℕ} (h : p n) : ∃ m ≤ n, IsFirst p m := by
  classical
  exact ⟨Nat.find ⟨n, h⟩, Nat.find_min' _ h, Nat.find_spec ⟨n, h⟩, fun m hm => Nat.find_min _ hm⟩

variable {body : σ → σ ⊕ α} {s : ℕ → σ} {p : ℕ → Prop} {g : ℕ → α}

/-- The passes before the first one that leaves the loop. -/
theorem passes_again (hagain : ∀ i, ¬ p i → body (s i) = .inl (s (i + 1))) {n : ℕ}
    (hn : ∀ i < n, ¬ p i) (m : ℕ) : passes body (n + m) (s 0) = passes body m (s n) := by
  induction n generalizing m with
  | zero => rw [Nat.zero_add]
  | succ n ih =>
    have hsplit : n + 1 + m = n + (m + 1) := by omega
    rw [hsplit, ih (fun i hi => hn i (by omega)), passes, hagain n (hn n (Nat.lt_succ_self n))]

/-- **Loops**: the pass `i` begins in the state `s i`; it leaves the loop with the result
    `g i` if `p i` holds. -/
theorem leftIn_loop_iff (hleave : ∀ i, p i → body (s i) = .inr (g i))
    (hagain : ∀ i, ¬ p i → body (s i) = .inl (s (i + 1))) {n : ℕ} {a : α} :
    (loop body (s 0)).LeftIn n a ↔ IsFirst p n ∧ a = g n := by
  have hfirst : ∀ {m}, IsFirst p m → passes body (m + 1) (s 0) = some (g m) := by
    intro m hm
    rw [passes_again hagain hm.first, passes, hleave m hm.holds]
  constructor
  · rintro ⟨hnone, hsome⟩
    have hbefore : ∀ i < n, ¬ p i := by
      intro i hi hp
      obtain ⟨m, hmi, hm⟩ := exists_isFirst hp
      cases hnone.symm.trans (passes_mono (Nat.succ_le_of_lt (by omega)) (hfirst hm))
    have hn : p n := by
      by_contra hn
      have hagain' : ∀ i < n + 1, ¬ p i := by
        intro i hi
        rcases Nat.lt_succ_iff_lt_or_eq.1 hi with hi | rfl
        · exact hbefore i hi
        · exact hn
      cases hsome.symm.trans (passes_again hagain hagain' 0)
    exact ⟨⟨hn, hbefore⟩, Option.some.inj (hsome.symm.trans (hfirst ⟨hn, hbefore⟩))⟩
  · rintro ⟨hn, rfl⟩
    exact ⟨passes_again hagain hn.first 0, hfirst hn⟩

/-- The loop returns iff there is a first pass that leaves it. -/
theorem returns_loop_iff (hleave : ∀ i, p i → body (s i) = .inr (g i))
    (hagain : ∀ i, ¬ p i → body (s i) = .inl (s (i + 1))) {a : α} :
    (loop body (s 0)).Returns a ↔ ∃ n, IsFirst p n ∧ a = g n := by
  rw [Computation.returns_iff_leftIn rfl]
  exact exists_congr fun _ => leftIn_loop_iff hleave hagain

/-- A loop that waits, with the same result in every pass. -/
theorem returns_wait_iff {b : α} (hleave : ∀ i, p i → body (s i) = .inr b)
    (hagain : ∀ i, ¬ p i → body (s i) = .inl (s (i + 1))) {a : α} :
    (loop body (s 0)).Returns a ↔ (∃ i, p i) ∧ a = b := by
  rw [returns_loop_iff (g := fun _ => b) hleave hagain]
  constructor
  · rintro ⟨n, hn, rfl⟩
    exact ⟨⟨n, hn.holds⟩, rfl⟩
  · rintro ⟨⟨i, hi⟩, rfl⟩
    obtain ⟨n, -, hn⟩ := exists_isFirst (p := p) hi
    exact ⟨n, hn, rfl⟩

end Effect
