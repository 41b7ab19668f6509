/-
  A process that runs its body forever and may crash at any moment.

  A round is one complete run of the body, which hands its result to the next
  round; a crash forgets the program and keeps the part of the world that
  survives it (`boot`).

  * `Service.Reach.wp`: the invariant of a specification holds in every
    reachable state, if every round keeps it and crashes keep it;
  * `Service.Rounds`: the runs made of complete rounds, with their history, and
    `Service.Rounds.induct`, their induction.
-/
import RollappExplorer.Effect.Prog

namespace Effect

variable {S : Sig} {W β : Type}

/-- A process: its environment, its body, the input of the first round, and
    what a crash leaves of the world. -/
structure Service (S : Sig) (W β : Type) where
  handler : Handler S W
  body : β → Prog S β
  start : β
  boot : W → W

namespace Service
variable (V : Service S W β)

/-- One transition: an answered call, the next round, or a crash. -/
inductive Trans : Prog S β × W → Prog S β × W → Prop
  | step {x y : Prog S β × W} : Step V.handler x y → Trans x y
  | again (b : β) (w : W) : Trans (.ret b, w) (V.body b, w)
  | crash (p : Prog S β) (w : W) : Trans (p, w) (V.body V.start, V.boot w)

/-- The states reached when the process starts in the world `w₀`. -/
abbrev Reach (w₀ : W) : Prog S β × W → Prop :=
  Relation.ReflTransGen V.Trans (V.body V.start, w₀)

/-- A specification the process keeps: every round from a good world is good,
    and neither crashes nor panics break the invariant. -/
structure Keeps (T : Spec W) : Prop where
  body : ∀ b w, T.inv w → T.wp V.handler (V.body b) (fun _ => T.inv) w
  boot : ∀ w, T.inv w → T.inv (V.boot w)
  panics : ∀ msg w, T.panics msg w → T.inv w

variable {V} {T : Spec W}

theorem Keeps.inv (hT : V.Keeps T) {p : Prog S β} {w : W}
    (h : T.wp V.handler p (fun _ => T.inv) w) : T.inv w :=
  Spec.wp_inv (fun _ _ h => h) hT.panics h

/-- One transition from a good state: what it does to the world, and that the
    state stays good. -/
theorem Keeps.trans (hT : V.Keeps T) {x y : Prog S β × W}
    (h : T.wp V.handler x.1 (fun _ => T.inv) x.2) (hs : V.Trans x y) :
    (T.guar x.2 y.2 ∨ y.2 = x.2 ∨ y.2 = V.boot x.2) ∧
      T.wp V.handler y.1 (fun _ => T.inv) y.2 := by
  cases hs with
  | step hs =>
    obtain ⟨hg, hw⟩ := Spec.wp_step h hs
    exact ⟨Or.inl hg, hw⟩
  | again b w => exact ⟨Or.inr (Or.inl rfl), hT.body b w h⟩
  | crash p w => exact ⟨Or.inr (Or.inr rfl), hT.body _ _ (hT.boot w (hT.inv h))⟩

/-- **Reachable states satisfy the specification.** -/
theorem Reach.wp (hT : V.Keeps T) {w₀ : W} (h₀ : T.inv w₀) {x : Prog S β × W}
    (hx : V.Reach w₀ x) : T.wp V.handler x.1 (fun _ => T.inv) x.2 := by
  induction hx with
  | refl => exact hT.body _ _ h₀
  | tail _ hs ih => exact (hT.trans ih hs).2

/-! ## Complete rounds -/

/-- One complete round: the world it starts in, its result, and the world it
    ends in. -/
structure Round (W β : Type) where
  before : W
  result : β
  after : W

variable (V) in
/-- Runs made of complete rounds, the last round first. -/
inductive Rounds (w₀ : W) : List (Round W β) → β → W → Prop
  | start : Rounds w₀ [] V.start w₀
  | round {rs : List (Round W β)} {b b' : β} {w w' : W} : Rounds w₀ rs b w →
      Run V.handler (V.body b, w) (.ret b', w') → Rounds w₀ (⟨w, b', w'⟩ :: rs) b' w'

/-- A property of histories that every round keeps holds after every run; each round may
    have a specification of its own. -/
theorem Rounds.induct {w₀ : W} {P : List (Round W β) → W → Prop} (h₀ : P [] w₀)
    (hround : ∀ rs b w, P rs w → ∃ T : Spec W,
      T.wp V.handler (V.body b) (fun b' w' => P (⟨w, b', w'⟩ :: rs) w') w)
    {rs : List (Round W β)} {b : β} {w : W} (h : V.Rounds w₀ rs b w) : P rs w := by
  induction h with
  | start => exact h₀
  | @round rs b _ w _ _ hr ih =>
    obtain ⟨T, hT⟩ := hround rs b w ih
    have hw := Spec.wp_result hT hr
    exact hw

/-! ## Scripted processes -/

/-- Let the script answer one call, or begin the next round. -/
def next (V : Service S W β) (r : Script S W) : Prog S β × W → Prog S β × W
  | (.ret b, w) => (V.body b, w)
  | x => r.next V.handler x

/-- One move of the script is a transition, unless the process has panicked. -/
theorem trans_next {r : Script S W} (hr : ∀ c w, V.handler.allows c (r c w) w) :
    ∀ x : Prog S β × W, V.Trans x (V.next r x) ∨ V.next r x = x
  | (.ret b, w) => Or.inl (.again b w)
  | (.panic _, _) => Or.inr rfl
  | (.call c _, w) => Or.inl (.step (.call (hr c w)))

/-- Let the script drive the process for `n` transitions. -/
def drive (V : Service S W β) (r : Script S W) : ℕ → Prog S β × W → Prog S β × W
  | 0, x => x
  | n + 1, x => V.drive r n (V.next r x)

/-- Driving a process with allowed answers reaches a state. -/
theorem drive_reach {r : Script S W} (hr : ∀ c w, V.handler.allows c (r c w) w) {w₀ : W} :
    ∀ (n : ℕ) (x : Prog S β × W), V.Reach w₀ x → V.Reach w₀ (V.drive r n x)
  | 0, _, hx => hx
  | n + 1, (.ret b, w), hx => drive_reach hr n _ (hx.tail (.again b w))
  | n + 1, (.panic _, _), hx => drive_reach hr n _ hx
  | n + 1, (.call c _, w), hx => drive_reach hr n _ (hx.tail (.step (.call (hr c w))))

end Service

end Effect
