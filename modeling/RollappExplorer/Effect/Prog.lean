/-
  Programs that call an environment: syntax, execution, and the rules of
  pre- and postconditions.

  A program is a tree: it returns, panics, or makes a call and goes on with the
  answer.  A handler says which answers a call may get in a world and what the
  call does to the world; a step of a program is one answered call, so the
  moments between two calls are the worlds of the configurations of a run.

  * `Spec.wp H p Q w`: from `w`, every moment of `p` satisfies the invariant,
    every call changes the world within the guarantee, and every result
    satisfies `Q`;
  * `Spec.wp_seq`, `Spec.wp_mono` and `Spec.wp_call_bind`: the rules programs are
    verified with, without ever unfolding a run;
  * `Spec.wp_run`: the rules are sound for runs;
  * `Step.acc`: every run ends.
-/
import Mathlib.Data.Nat.Notation
import Mathlib.Logic.Relation

namespace Effect

/-- The calls of an environment and the answers each of them can get. -/
structure Sig where
  Call : Type
  Ans : Call → Type

/-- Programs over the calls of `S`. -/
inductive Prog (S : Sig) (α : Type) where
  | ret (a : α)
  | panic (msg : String)
  | call (c : S.Call) (k : S.Ans c → Prog S α)

variable {S : Sig} {α β : Type} {W : Type}

/-- Sequencing; a panic skips the rest of the program. -/
def Prog.bind : Prog S α → (α → Prog S β) → Prog S β
  | .ret a, f => f a
  | .panic msg, _ => .panic msg
  | .call c k, f => .call c fun a => (k a).bind f

instance : Monad (Prog S) where
  pure := .ret
  bind := .bind

/-- Make one call and return its answer. -/
def Prog.perform (c : S.Call) : Prog S (S.Ans c) := .call c .ret

@[simp] theorem Prog.pure_eq (a : α) : (pure a : Prog S α) = .ret a := rfl

@[simp] theorem Prog.bind_ret (a : α) (f : α → Prog S β) : (Prog.ret a >>= f) = f a := rfl

@[simp] theorem Prog.bind_panic (msg : String) (f : α → Prog S β) :
    (Prog.panic msg >>= f) = .panic msg := rfl

/-- Whether the program has returned a value with the property. -/
def Prog.returned (b : α → Bool) : Prog S α → Bool
  | .ret a => b a
  | _ => false

theorem Prog.exists_ret {b : α → Bool} {p : Prog S α} (h : p.returned b = true) :
    ∃ a, p = .ret a ∧ b a = true := by
  cases p with
  | ret a => exact ⟨a, rfl, h⟩
  | panic msg | call c k => cases h

/-- The environment: the answers a call may get in a world, and the world
    after the call. -/
structure Handler (S : Sig) (W : Type) where
  allows : (c : S.Call) → S.Ans c → W → Prop
  effect : (c : S.Call) → S.Ans c → W → W

/-- One answered call. -/
inductive Step (H : Handler S W) : Prog S α × W → Prog S α × W → Prop
  | call {c : S.Call} {k : S.Ans c → Prog S α} {a : S.Ans c} {w : W} :
      H.allows c a w → Step H (.call c k, w) (k a, H.effect c a w)

/-- A part of a run of a program: its configurations are the moments between
    two calls. -/
abbrev Run (H : Handler S W) : Prog S α × W → Prog S α × W → Prop :=
  Relation.ReflTransGen (Step H)

/-- A run is also one of an environment that allows more. -/
theorem Run.mono {H H' : Handler S W} (ha : ∀ c a w, H.allows c a w → H'.allows c a w)
    (he : H.effect = H'.effect) {x y : Prog S α × W} (h : Run H x y) : Run H' x y := by
  refine Relation.ReflTransGen.mono (fun x y hs => ?_) _ _ h
  cases hs with
  | call hc =>
    rw [he]
    exact .call (ha _ _ _ hc)

/-- A run of a sequence begins with one of its first part. -/
theorem Run.bind {H : Handler S W} {p q : Prog S α} {w w' : W} (f : α → Prog S β)
    (h : Run H (p, w) (q, w')) : Run H (p >>= f, w) (q >>= f, w') := by
  refine Relation.ReflTransGen.lift (fun x : Prog S α × W => (x.1 >>= f, x.2)) ?_ _ _ h
  intro x y hs
  cases hs with
  | call ha => exact .call ha

/-- The runs of the two parts of a sequence make one of the sequence. -/
theorem Run.seq {H : Handler S W} {p : Prog S α} {f : α → Prog S β} {a : α} {w w' : W}
    {y : Prog S β × W} (h : Run H (p, w) (.ret a, w')) (h' : Run H (f a, w') y) :
    Run H (p >>= f, w) y :=
  (h.bind f).trans h'

/-- A call may get any answer that is allowed. -/
theorem Run.perform {H : Handler S W} {c : S.Call} {a : S.Ans c} {w : W}
    (ha : H.allows c a w) : Run H (.perform c, w) (.ret a, H.effect c a w) :=
  .single (.call ha)

/-- **Programs terminate**: every run makes finitely many calls. -/
theorem Step.acc (H : Handler S W) (p : Prog S α) (w : W) :
    Acc (fun y x => Step H x y) (p, w) := by
  induction p generalizing w with
  | ret a => exact .intro _ fun y hy => by cases hy
  | panic msg => exact .intro _ fun y hy => by cases hy
  | call c k ih =>
    refine .intro _ fun y hy => ?_
    cases hy with
    | call _ => exact ih _ _

/-- The environment, with a record of the answered calls, the last one first. -/
def Handler.logged (H : Handler S W) : Handler S (W × List ((c : S.Call) × S.Ans c)) where
  allows c a x := H.allows c a x.1
  effect c a x := (H.effect c a x.1, ⟨c, a⟩ :: x.2)

/-! ## Specifications -/

/-- What is demanded of all moments, of all changes and of all panics of a
    program. -/
structure Spec (W : Type) where
  inv : W → Prop
  guar : W → W → Prop
  panics : String → W → Prop

/-- Only panics are excluded. -/
def Spec.noPanics (W : Type) : Spec W := ⟨fun _ => True, fun _ _ => True, fun _ _ => False⟩

/-- Nothing is excluded. -/
def Spec.anything (W : Type) : Spec W := ⟨fun _ => True, fun _ _ => True, fun _ _ => True⟩

/-- The weakest precondition of `p`. -/
def Spec.wp (T : Spec W) (H : Handler S W) : Prog S α → (α → W → Prop) → W → Prop
  | .ret a, Q, w => Q a w
  | .panic msg, _, w => T.panics msg w
  | .call c k, Q, w => T.inv w ∧ ∀ a, H.allows c a w →
      T.guar w (H.effect c a w) ∧ T.wp H (k a) Q (H.effect c a w)

namespace Spec
variable {T : Spec W} {H : Handler S W} {Q : α → W → Prop} {w : W}

@[simp] theorem wp_ret (a : α) : T.wp H (.ret a) Q w ↔ Q a w := Iff.rfl

@[simp] theorem wp_panic (msg : String) : T.wp H (.panic msg) Q w ↔ T.panics msg w := Iff.rfl

/-- **Sequencing.** -/
theorem wp_bind (p : Prog S α) (f : α → Prog S β) (Q : β → W → Prop) (w : W) :
    T.wp H (p >>= f) Q w ↔ T.wp H p (fun a => T.wp H (f a) Q) w := by
  induction p generalizing w with
  | ret a => rfl
  | panic msg => rfl
  | call c k ih =>
    exact and_congr_right fun _ => forall_congr' fun a => imp_congr_right fun _ =>
      and_congr_right fun _ => ih a _

/-- **Consequence.** -/
theorem wp_mono {p : Prog S α} {Q Q' : α → W → Prop} {w : W} (hQ : ∀ a w, Q a w → Q' a w)
    (h : T.wp H p Q w) : T.wp H p Q' w := by
  induction p generalizing w with
  | ret a => exact hQ a w h
  | panic msg => exact h
  | call c k ih => exact ⟨h.1, fun a ha => ⟨(h.2 a ha).1, ih a (h.2 a ha).2⟩⟩

/-- Sequencing with the postcondition `R` in between. -/
theorem wp_seq {p : Prog S α} {f : α → Prog S β} {R : α → W → Prop} {Q : β → W → Prop} {w : W}
    (h : T.wp H p R w) (hR : ∀ a w, R a w → T.wp H (f a) Q w) : T.wp H (p >>= f) Q w :=
  (wp_bind p f Q w).2 (wp_mono hR h)

/-- A call goes on with every answer it may get. -/
theorem wp_call_bind {c : S.Call} {f : S.Ans c → Prog S α} (hI : T.inv w)
    (h : ∀ a, H.allows c a w →
      T.guar w (H.effect c a w) ∧ T.wp H (f a) Q (H.effect c a w)) :
    T.wp H (.perform c >>= f) Q w := ⟨hI, h⟩

theorem wp_step {x y : Prog S α × W} (h : T.wp H x.1 Q x.2) (hs : Step H x y) :
    T.guar x.2 y.2 ∧ T.wp H y.1 Q y.2 := by
  cases hs with
  | call ha => exact h.2 _ ha

/-- **Soundness**: the precondition holds of every configuration of a run. -/
theorem wp_run {x y : Prog S α × W} (h : T.wp H x.1 Q x.2) (hr : Run H x y) :
    T.wp H y.1 Q y.2 := by
  induction hr with
  | refl => exact h
  | tail _ hs ih => exact (wp_step ih hs).2

/-- The result of a complete run satisfies the postcondition. -/
theorem wp_result {p : Prog S α} {a : α} {w' : W} (h : T.wp H p Q w)
    (hr : Run H (p, w) (.ret a, w')) : Q a w' :=
  wp_run (x := (p, w)) h hr

/-- If results and panics keep the invariant, it holds at every moment. -/
theorem wp_inv (hQ : ∀ a w, Q a w → T.inv w) (hp : ∀ msg w, T.panics msg w → T.inv w) :
    ∀ {p : Prog S α} {w : W}, T.wp H p Q w → T.inv w
  | .ret a, w, h => hQ a w h
  | .panic msg, w, h => hp msg w h
  | .call _ _, _, h => h.1

end Spec

/-! ## Scripted environments -/

/-- An environment that answers every call by a function of the world. -/
abbrev Script (S : Sig) (W : Type) := (c : S.Call) → W → S.Ans c

/-- Let the script answer one call. -/
def Script.next (r : Script S W) (H : Handler S W) : Prog S α × W → Prog S α × W
  | (.call c k, w) => (k (r c w), H.effect c (r c w) w)
  | x => x

/-- Let the script answer `n` calls. -/
def Script.drive (r : Script S W) (H : Handler S W) : ℕ → Prog S α × W → Prog S α × W
  | 0, x => x
  | n + 1, x => r.drive H n (r.next H x)

/-- Driving a program with allowed answers is a run. -/
theorem Script.drive_run {r : Script S W} {H : Handler S W} (hr : ∀ c w, H.allows c (r c w) w) :
    ∀ (n : ℕ) (x : Prog S α × W), Run H x (r.drive H n x)
  | 0, _ => .refl
  | n + 1, (.ret _, _) => drive_run hr n _
  | n + 1, (.panic _, _) => drive_run hr n _
  | n + 1, (.call c _, w) => .head (.call (hr c w)) (drive_run hr n _)

/-- A program that returns when driven with allowed answers has a complete run. -/
theorem Script.run_of_returned {r : Script S W} {H : Handler S W}
    (hr : ∀ c w, H.allows c (r c w) w) {n : ℕ} {p : Prog S α} {w : W} {b : α → Bool}
    (h : (r.drive H n (p, w)).1.returned b = true) :
    ∃ a, b a = true ∧ Run H (p, w) (.ret a, (r.drive H n (p, w)).2) := by
  obtain ⟨a, ha, hb⟩ := Prog.exists_ret h
  have hrun : Run H (p, w) (r.drive H n (p, w)) := Script.drive_run hr n _
  have hx : r.drive H n (p, w) = (.ret a, (r.drive H n (p, w)).2) := Prod.ext ha rfl
  rw [hx] at hrun
  exact ⟨a, hb, hrun⟩

end Effect
