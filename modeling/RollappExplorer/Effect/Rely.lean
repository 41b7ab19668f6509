/-
  Programs among interfering steps.

  Between two calls of a program, others may change the world, each time by a step of the
  relation `R`.  An assertion that such steps keep is stable.

  * `SharedRun R H`: the runs of a program with the steps of the others in between;
  * `relyWp R H p Q w`: whatever the others do, `p` does not panic from `w`, and its results
    satisfy `Q`, also after further steps of the others;
  * `relyWp_seq`, `relyWp_call`: the rules, for stable assertions;
  * `relyWp_sharedRun`: the rules are sound for shared runs.
-/
import RollappExplorer.Effect.Prog

namespace Effect

variable {S : Sig} {α β : Type} {W : Type}

/-- A step among others: an answered call, or a step of another. -/
inductive SharedStep (R : W → W → Prop) (H : Handler S W) : Prog S α × W → Prog S α × W → Prop
  | call {x y : Prog S α × W} : Step H x y → SharedStep R H x y
  | other {p : Prog S α} {w w' : W} : R w w' → SharedStep R H (p, w) (p, w')

/-- A part of a run among others. -/
abbrev SharedRun (R : W → W → Prop) (H : Handler S W) :
    Prog S α × W → Prog S α × W → Prop :=
  Relation.ReflTransGen (SharedStep R H)

/-- A run is also one among others. -/
theorem Run.shared {R : W → W → Prop} {H : Handler S W} {x y : Prog S α × W} (h : Run H x y) :
    SharedRun R H x y := Relation.ReflTransGen.mono (fun _ _ => .call) _ _ h

/-- Any number of steps of the others. -/
abbrev Others (R : W → W → Prop) : W → W → Prop := Relation.ReflTransGen R

/-- The weakest precondition of `p` among others. -/
def relyWp (R : W → W → Prop) (H : Handler S W) : Prog S α → (α → W → Prop) → W → Prop
  | .ret a, Q, w => ∀ w', Others R w w' → Q a w'
  | .panic _, _, _ => False
  | .call c k, Q, w => ∀ w', Others R w w' → ∀ a, H.allows c a w' →
      relyWp R H (k a) Q (H.effect c a w')

/-- The steps of the others keep the assertion. -/
def Stable (R : W → W → Prop) (P : W → Prop) : Prop := ∀ w w', P w → R w w' → P w'

variable {R : W → W → Prop} {H : Handler S W} {P : W → Prop} {Q : α → W → Prop} {w : W}

theorem stable_true : Stable R fun _ => True := fun _ _ _ _ => trivial

theorem Stable.others (h : Stable R P) {w w' : W} (hw : P w) (hr : Others R w w') : P w' := by
  induction hr with
  | refl => exact hw
  | tail _ hs ih => exact h _ _ ih hs

/-- The steps of the others keep a weakest precondition. -/
theorem relyWp_others {p : Prog S α} {w' : W} (h : relyWp R H p Q w) (hr : Others R w w') :
    relyWp R H p Q w' := by
  cases p with
  | ret a => exact fun w₁ h₁ => h w₁ (hr.trans h₁)
  | panic msg => exact h
  | call c k => exact fun w₁ h₁ => h w₁ (hr.trans h₁)

/-! ## Rules -/

theorem relyWp_ret {a : α} (hP : Stable R P) (hw : P w) (h : ∀ w, P w → Q a w) :
    relyWp R H (.ret a) Q w := fun _ hr => h _ (hP.others hw hr)

/-- **Consequence.** -/
theorem relyWp_mono {p : Prog S α} {Q' : α → W → Prop} (hQ : ∀ a w, Q a w → Q' a w)
    (h : relyWp R H p Q w) : relyWp R H p Q' w := by
  induction p generalizing w with
  | ret a => exact fun w' hr => hQ a w' (h w' hr)
  | panic msg => exact h
  | call c k ih => exact fun w' hr a ha => ih a (h w' hr a ha)

/-- **Sequencing.** -/
theorem relyWp_seq {p : Prog S α} {f : α → Prog S β} {Q' : β → W → Prop}
    (h : relyWp R H p Q w) (hf : ∀ a w, Q a w → relyWp R H (f a) Q' w) :
    relyWp R H (p >>= f) Q' w := by
  induction p generalizing w with
  | ret a => exact hf a w (h w .refl)
  | panic msg => exact h
  | call c k ih => exact fun w' hr a ha => ih a (h w' hr a ha)

/-- **A call** is made in some world that satisfies the stable assertion. -/
theorem relyWp_call {c : S.Call} {f : S.Ans c → Prog S α} (hP : Stable R P) (hw : P w)
    (h : ∀ w, P w → ∀ a, H.allows c a w → relyWp R H (f a) Q (H.effect c a w)) :
    relyWp R H (.perform c >>= f) Q w :=
  fun _ hr a ha => h _ (hP.others hw hr) a ha

/-! ## Soundness -/

theorem relyWp_step {x y : Prog S α × W} (h : relyWp R H x.1 Q x.2) (hs : SharedStep R H x y) :
    relyWp R H y.1 Q y.2 := by
  cases hs with
  | call hs =>
    cases hs with
    | call ha => exact h _ .refl _ ha
  | other hr => exact relyWp_others h (.single hr)

theorem relyWp_sharedRun {x y : Prog S α × W} (h : relyWp R H x.1 Q x.2)
    (hr : SharedRun R H x y) : relyWp R H y.1 Q y.2 := by
  induction hr with
  | refl => exact h
  | tail _ hs ih => exact relyWp_step ih hs

/-- The result of a complete run among others satisfies the postcondition. -/
theorem relyWp_result {p : Prog S α} {a : α} {w' : W} (h : relyWp R H p Q w)
    (hr : SharedRun R H (p, w) (.ret a, w')) : Q a w' :=
  relyWp_sharedRun (x := (p, w)) h hr w' .refl

end Effect
