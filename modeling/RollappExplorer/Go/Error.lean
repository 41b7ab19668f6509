/-
  Go errors by their texts, and functions made of checks.

  A function that returns at its first failing check is a sequence of `failIf`;
  `bind_unit_ok_iff` and `forM_ok_iff` read off when it returns no error.
-/
import Mathlib.Tactic.Common

namespace Go

/-- An error, by the text its method `Error` returns. -/
abbrev Error := String

/-- `errors.Wrap`. -/
def wrap (err : Error) (msg : String) : Error := msg ++ ": " ++ err

/-- `if cond { return err }`. -/
def failIf (cond : Prop) [Decidable cond] (err : Error) : Except Error Unit :=
  if cond then .error err else .ok ()

@[simp] theorem failIf_ok_iff {cond : Prop} [Decidable cond] {err : Error} {u : Unit} :
    failIf cond err = .ok u ↔ ¬ cond := by
  unfold failIf; split_ifs with h <;> simp [h]

variable {α β : Type}

@[simp] theorem ok_bind {a : α} {f : α → Except Error β} : (Except.ok a >>= f) = f a := rfl

/-- A sequence of two steps returns a value iff both do. -/
theorem bind_ok_iff {x : Except Error α} {f : α → Except Error β} {b : β} :
    (x >>= f) = .ok b ↔ ∃ a, x = .ok a ∧ f a = .ok b := by
  cases x with
  | error e => simp [bind, Except.bind]
  | ok a => simp [bind, Except.bind]

@[simp] theorem bind_unit_ok_iff {x : Except Error Unit} {f : Unit → Except Error β} {b : β} :
    (x >>= f) = .ok b ↔ x = .ok () ∧ f () = .ok b := by
  rw [bind_ok_iff]; exact ⟨fun ⟨(), h⟩ => h, fun h => ⟨(), h⟩⟩

theorem mapError_ok_iff {x : Except Error α} {g : Error → Error} {a : α} :
    x.mapError g = .ok a ↔ x = .ok a := by
  cases x with
  | error e => simp [Except.mapError]
  | ok a' => simp [Except.mapError]

/-- A loop of checks passes iff every check does. -/
theorem forM_ok_iff {l : List α} {f : α → Except Error Unit} {u : Unit} :
    l.forM f = .ok u ↔ ∀ a ∈ l, f a = .ok () := by
  induction l with
  | nil => simp [List.forM, pure, Except.pure]
  | cons a l ih => simp only [List.forM, bind_unit_ok_iff, ih, List.forall_mem_cons]

/-- A loop that collects a value for each element returns the values iff it has them all. -/
theorem mapM_ok_iff {f : α → Except Error β} {l : List α} {l' : List β} :
    l.mapM f = .ok l' ↔ l.map f = l'.map .ok := by
  induction l generalizing l' with
  | nil =>
    rw [List.mapM_nil, List.map_nil, eq_comm (a := []), List.map_eq_nil_iff]
    exact ⟨fun h => (Except.ok.inj h).symm, fun h => h ▸ rfl⟩
  | cons a l ih =>
    rw [List.mapM_cons, bind_ok_iff, List.map_cons]
    constructor
    · rintro ⟨b, hb, h⟩
      obtain ⟨bs, hbs, h⟩ := bind_ok_iff.1 h
      obtain rfl : b :: bs = l' := Except.ok.inj h
      rw [hb, ih.1 hbs, List.map_cons]
    · intro h
      obtain ⟨b, bs, rfl, hb, hbs⟩ := List.map_eq_cons_iff.1 h.symm
      exact ⟨b, hb.symm, bind_ok_iff.2 ⟨bs, ih.2 hbs.symm, rfl⟩⟩

/-- The results of a loop that collects a value for each element. -/
theorem mem_of_mapM_ok {f : α → Except Error β} {l : List α} {l' : List β}
    (h : l.mapM f = .ok l') {b : β} (hb : b ∈ l') : ∃ a ∈ l, f a = .ok b := by
  have hm : (Except.ok b : Except Error β) ∈ l'.map .ok := List.mem_map_of_mem hb
  rw [← mapM_ok_iff.1 h] at hm
  exact List.mem_map.1 hm

theorem exists_of_mapM_ok {f : α → Except Error β} {l : List α} {l' : List β}
    (h : l.mapM f = .ok l') {a : α} (ha : a ∈ l) : ∃ b ∈ l', f a = .ok b := by
  have hm : f a ∈ l.map f := List.mem_map_of_mem ha
  rw [mapM_ok_iff.1 h] at hm
  obtain ⟨b, hb, he⟩ := List.mem_map.1 hm
  exact ⟨b, hb, he.symm⟩

theorem mapM_singleton_ok {f : α → Except Error β} {a : α} {b : β} (h : f a = .ok b) :
    [a].mapM f = .ok [b] :=
  mapM_ok_iff.2 (congrArg (fun x => [x]) h)

theorem mapM_ok_mem {f : α → Except Error β} {l : List α} {l' : List β} (h : l.mapM f = .ok l')
    {a : α} (ha : a ∈ l) {b : β} (hb : f a = .ok b) : b ∈ l' := by
  obtain ⟨b', hb', he⟩ := exists_of_mapM_ok h ha
  rwa [Except.ok.inj (hb.symm.trans he)]

/-! ## Loops with an accumulator -/

variable {σ : Type}

theorem discard_ok_iff {x : Except Error α} {u : Unit} : discard x = .ok u ↔ ∃ a, x = .ok a := by
  cases x <;> simp [discard, Functor.discard, Functor.mapConst, Except.map]

/-- A loop whose steps all succeed, with an invariant about the elements it has
    passed. -/
theorem foldlM_spec {step : σ → α → Except Error σ} {J : List α → σ → Prop} {l : List α} {s : σ}
    (h₀ : J [] s)
    (h : ∀ done, ∀ a ∈ l, ∀ s, J done s → ∃ s', step s a = .ok s' ∧ J (done ++ [a]) s') :
    ∃ s', l.foldlM step s = .ok s' ∧ J l s' := by
  suffices hloop : ∀ todo done s, (∀ a ∈ todo, a ∈ l) → J done s →
      ∃ s', todo.foldlM step s = .ok s' ∧ J (done ++ todo) s' from
    hloop l [] s (fun _ h => h) h₀
  intro todo
  induction todo with
  | nil => intro done s _ hs; exact ⟨s, rfl, by rwa [List.append_nil]⟩
  | cons a todo ih =>
    intro done s hl hs
    obtain ⟨s₁, he, hs₁⟩ := h done a (hl a (by simp)) s hs
    obtain ⟨s', he', hs'⟩ := ih (done ++ [a]) s₁ (fun b hb => hl b (by simp [hb])) hs₁
    refine ⟨s', ?_, by simpa using hs'⟩
    rw [List.foldlM_cons, he, ok_bind, he']

/-- A loop that has returned, with an invariant about the elements it has passed. -/
theorem foldlM_passed {step : σ → α → Except Error σ} {J : List α → σ → Prop} {l : List α}
    {s s' : σ} (h₀ : J [] s)
    (h : ∀ done, ∀ a ∈ l, ∀ s s', J done s → step s a = .ok s' → J (done ++ [a]) s')
    (he : l.foldlM step s = .ok s') : J l s' := by
  suffices hloop : ∀ todo done s, (∀ a ∈ todo, a ∈ l) → J done s →
      todo.foldlM step s = .ok s' → J (done ++ todo) s' from
    hloop l [] s (fun _ h => h) h₀ he
  intro todo
  induction todo with
  | nil =>
    intro done s _ hs he
    obtain rfl : s = s' := Except.ok.inj he
    rwa [List.append_nil]
  | cons a todo ih =>
    intro done s hl hs he
    rw [List.foldlM_cons] at he
    obtain ⟨s₁, he₁, he⟩ := bind_ok_iff.1 he
    have hs₁ := h done a (hl a List.mem_cons_self) s s₁ hs he₁
    have hs' := ih (done ++ [a]) s₁ (fun b hb => hl b (List.mem_cons_of_mem _ hb)) hs₁ he
    rwa [List.append_assoc] at hs'

/-- A loop that has returned, with an invariant that its steps keep. -/
theorem foldlM_keeps {step : σ → α → Except Error σ} {I : σ → Prop} {l : List α} {s s' : σ}
    (h : ∀ a ∈ l, ∀ s s', I s → step s a = .ok s' → I s') (hs : I s)
    (he : l.foldlM step s = .ok s') : I s' :=
  foldlM_passed (J := fun _ => I) hs (fun _ => h) he

/-- A loop that has returned, with an invariant about the elements it has still to pass. -/
theorem foldlM_pending {step : σ → α → Except Error σ} {J : List α → σ → Prop}
    (hstep : ∀ a todo s s', J (a :: todo) s → step s a = .ok s' → J todo s') {l : List α}
    {s s' : σ} (h : J l s) (he : l.foldlM step s = .ok s') : J [] s' := by
  induction l generalizing s with
  | nil =>
    obtain rfl : s = s' := Except.ok.inj he
    exact h
  | cons a l ih =>
    rw [List.foldlM_cons] at he
    obtain ⟨s₁, he₁, he⟩ := bind_ok_iff.1 he
    exact ih (hstep a l s s₁ h he₁) he

/-- A loop whose steps all succeed, with an invariant about the elements it has still to pass. -/
theorem foldlM_proceeds {step : σ → α → Except Error σ} {J : List α → σ → Prop}
    (hstep : ∀ a todo s, J (a :: todo) s → ∃ s', step s a = .ok s' ∧ J todo s') {l : List α}
    {s : σ} (h : J l s) : ∃ s', l.foldlM step s = .ok s' := by
  induction l generalizing s with
  | nil => exact ⟨s, rfl⟩
  | cons a l ih =>
    obtain ⟨s₁, he₁, h₁⟩ := hstep a l s h
    obtain ⟨s', he⟩ := ih h₁
    exact ⟨s', by rw [List.foldlM_cons, he₁, ok_bind, he]⟩

/-- A loop whose steps never fail. -/
theorem foldlM_total {step : σ → α → Except Error σ} (hstep : ∀ s a, ∃ s', step s a = .ok s')
    (l : List α) (s : σ) : ∃ s', l.foldlM step s = .ok s' :=
  foldlM_proceeds (J := fun _ _ => True) (fun a _ s _ => (hstep s a).imp fun _ h => ⟨h, trivial⟩)
    trivial

/-- The error of a loop is that of one of its steps. -/
theorem foldlM_error {step : σ → α → Except Error σ} {l : List α} {s : σ} {err : Error}
    (he : l.foldlM step s = .error err) : ∃ a ∈ l, ∃ s, step s a = .error err := by
  induction l generalizing s with
  | nil => cases he
  | cons a l ih =>
    rw [List.foldlM_cons] at he
    cases hs : step s a with
    | error e =>
      rw [hs] at he
      obtain rfl : e = err := Except.error.inj he
      exact ⟨a, List.mem_cons_self, s, hs⟩
    | ok s₁ =>
      rw [hs, ok_bind] at he
      obtain ⟨b, hb, hstep⟩ := ih he
      exact ⟨b, List.mem_cons_of_mem _ hb, hstep⟩

/-- A loop that has ended a property of its accumulator did so in one of its steps. -/
theorem foldlM_ends {step : σ → α → Except Error σ} {P : σ → Prop} {l : List α} {s s' : σ}
    (hs : P s) (hs' : ¬ P s') (he : l.foldlM step s = .ok s') :
    ∃ done a todo s₁ s₂, l = done ++ a :: todo ∧ done.foldlM step s = .ok s₁ ∧
      step s₁ a = .ok s₂ ∧ P s₁ ∧ ¬ P s₂ := by
  induction l generalizing s with
  | nil =>
    obtain rfl : s = s' := Except.ok.inj he
    exact absurd hs hs'
  | cons a l ih =>
    rw [List.foldlM_cons] at he
    obtain ⟨s₁, he₁, he⟩ := bind_ok_iff.1 he
    by_cases hs₁ : P s₁
    · obtain ⟨done, b, todo, s₂, s₃, rfl, h⟩ := ih hs₁ he
      refine ⟨a :: done, b, todo, s₂, s₃, rfl, ?_, h.2⟩
      rw [List.foldlM_cons, he₁, ok_bind, h.1]
    · exact ⟨[], a, l, s, s₁, rfl, rfl, he₁, hs, hs₁⟩

/-- A loop that collects, in the view `v` of its accumulator, what each element
    contributes. -/
theorem foldlM_collect {ι : Type} {step : σ → α → Except Error σ} {I : σ → Prop}
    {v : σ → ι → Prop} {g : α → ι → Prop} {l : List α} {s : σ} (hs : I s)
    (h : ∀ a ∈ l, ∀ s, I s →
      ∃ s', step s a = .ok s' ∧ I s' ∧ ∀ x, v s' x ↔ v s x ∨ g a x) :
    ∃ s', l.foldlM step s = .ok s' ∧ I s' ∧ ∀ x, v s' x ↔ v s x ∨ ∃ a ∈ l, g a x := by
  refine foldlM_spec (J := fun done s' => I s' ∧ ∀ x, v s' x ↔ v s x ∨ ∃ a ∈ done, g a x)
    ⟨hs, fun x => by simp⟩ fun done a ha s₁ ⟨hI, hv⟩ => ?_
  obtain ⟨s', he, hI', hv'⟩ := h a ha s₁ hI
  refine ⟨s', he, hI', fun x => ?_⟩
  rw [hv', hv, or_assoc]
  refine or_congr_right ⟨?_, ?_⟩
  · rintro (⟨b, hb, hg⟩ | hg)
    · exact ⟨b, by simp [hb], hg⟩
    · exact ⟨a, by simp, hg⟩
  · rintro ⟨b, hb, hg⟩
    rcases List.mem_append.1 hb with hb | hb
    · exact Or.inl ⟨b, hb, hg⟩
    · obtain rfl := List.mem_singleton.1 hb
      exact Or.inr hg

/-- What a loop that has returned has collected, whether or not its steps can fail. -/
theorem foldlM_collects {ι : Type} {step : σ → α → Except Error σ} {I : σ → Prop}
    {v : σ → ι → Prop} {g : α → ι → Prop} {l : List α} {s s' : σ}
    (h : ∀ a s s', I s → step s a = .ok s' → I s' ∧ ∀ x, v s' x ↔ v s x ∨ g a x)
    (hs : I s) (he : l.foldlM step s = .ok s') :
    I s' ∧ ∀ x, v s' x ↔ v s x ∨ ∃ a ∈ l, g a x := by
  induction l generalizing s with
  | nil =>
    obtain rfl : s = s' := Except.ok.inj he
    exact ⟨hs, fun x => by simp⟩
  | cons a l ih =>
    rw [List.foldlM_cons] at he
    obtain ⟨s₁, he₁, he⟩ := bind_ok_iff.1 he
    obtain ⟨hs₁, hv₁⟩ := h a s s₁ hs he₁
    obtain ⟨hs', hv⟩ := ih hs₁ he
    refine ⟨hs', fun x => ?_⟩
    rw [hv, hv₁, or_assoc]
    simp only [List.mem_cons, exists_eq_or_imp]

/-- Two loops over the same elements, with a relation between their accumulators. -/
theorem foldlM_parallel {τ : Type} {step : σ → α → Except Error σ} {step' : τ → α → Except Error τ}
    {J : σ → τ → Prop} {l : List α}
    (h : ∀ a ∈ l, ∀ s t s' t', J s t → step s a = .ok s' → step' t a = .ok t' → J s' t')
    {s s' : σ} {t t' : τ} (hst : J s t) (hs : l.foldlM step s = .ok s')
    (ht : l.foldlM step' t = .ok t') : J s' t' := by
  induction l generalizing s t with
  | nil =>
    obtain rfl : s = s' := Except.ok.inj hs
    obtain rfl : t = t' := Except.ok.inj ht
    exact hst
  | cons a l ih =>
    rw [List.foldlM_cons] at hs ht
    obtain ⟨s₁, hs₁, hs⟩ := bind_ok_iff.1 hs
    obtain ⟨t₁, ht₁, ht⟩ := bind_ok_iff.1 ht
    exact ih (fun b hb => h b (List.mem_cons_of_mem _ hb))
      (h a List.mem_cons_self s t s₁ t₁ hst hs₁ ht₁) hs ht

/-- A loop whose steps check their element, from accumulators in `P`, passes iff
    every check does. -/
theorem foldlM_ok_iff {step : σ → α → Except Error σ} {P : σ → Prop} {C : α → Prop}
    {l : List α} {s : σ} (h : ∀ a ∈ l, ∀ s, P s →
      (C a ∧ ∃ s', step s a = .ok s' ∧ P s') ∨ (¬ C a ∧ ∀ s', step s a ≠ .ok s')) (hs : P s) :
    (∃ s', l.foldlM step s = .ok s') ↔ ∀ a ∈ l, C a := by
  induction l generalizing s with
  | nil => simp [pure, Except.pure]
  | cons a l ih =>
    simp only [List.foldlM_cons, List.forall_mem_cons, bind_ok_iff]
    rcases h a (by simp) s hs with ⟨hc, s', he, hp⟩ | ⟨hc, he⟩
    · rw [← ih (fun b hb => h b (by simp [hb])) hp, he]
      simp [hc]
    · simp [hc, he]

/-- A step that only checks its element and returns the new accumulator. -/
theorem check_step {x : Except Error Unit} {s : σ} {P : σ → Prop} (hs : P s) :
    (x = .ok () ∧ ∃ s', (do x; pure s : Except Error σ) = .ok s' ∧ P s') ∨
      (¬ x = .ok () ∧ ∀ s', (do x; pure s : Except Error σ) ≠ .ok s') := by
  rcases x with e | u
  · exact Or.inr ⟨by simp, by simp⟩
  · exact Or.inl ⟨rfl, s, rfl, hs⟩

/-! ## Two computations side by side -/

/-- Two sequences whose steps differ by `g` and by `h`. -/
theorem bind_map {α' β' : Type} {x : Except Error α} {x' : Except Error α'} {g : α → α'}
    {h : β → β'} {f : α → Except Error β} {f' : α' → Except Error β'} (hx : x' = x.map g)
    (hf : ∀ a, x = .ok a → f' (g a) = (f a).map h) : (x' >>= f') = (x >>= f).map h := by
  subst hx
  cases x with
  | error e => rfl
  | ok a => exact hf a rfl

/-- Two loops whose steps differ by `g`. -/
theorem foldlM_map {τ : Type} {step : σ → α → Except Error σ} {step' : τ → α → Except Error τ}
    {g : σ → τ} {l : List α} (h : ∀ a ∈ l, ∀ s, step' (g s) a = (step s a).map g) (s : σ) :
    l.foldlM step' (g s) = (l.foldlM step s).map g := by
  induction l generalizing s with
  | nil => rfl
  | cons a l ih =>
    obtain ⟨ha, hl⟩ := List.forall_mem_cons.1 h
    rw [List.foldlM_cons, List.foldlM_cons]
    exact bind_map (ha s) fun s' _ => ih hl s'

end Go
