/-
  Pages of rows: `ORDER BY … DESC OFFSET … LIMIT …`.

  Rows with the same key are returned in any order, and every query may choose another one.

  * `page`: the rows of a page; `flatten_pages`: the pages of a list make it up;
  * `IsOrder`: the orders a query may choose;
  * `Straddles`: the rows of a key stand on both sides of a position;
  * `pages_perm_iff`: whatever the queries choose, their pages show every row once iff no rows that
    have the same key and are shown differently stand on both sides of a page boundary.
-/
import RollappExplorer.Sql.Order

namespace Sql

variable {α β κ : Type} {l rows order order' : List α} {n m k p : ℕ}

/-! ## Pages -/

/-- `OFFSET k * n LIMIT n` -/
def page (n k : ℕ) (l : List α) : List α := (l.drop (k * n)).take n

/-- The pages of a list make up its beginning. -/
theorem flatten_pages (l : List α) (n m : ℕ) :
    ((List.range m).map fun k => page n k l).flatten = l.take (m * n) := by
  induction m with
  | zero => rw [Nat.zero_mul, List.take_zero]; rfl
  | succ m ih =>
    rw [List.range_succ, List.map_append, List.flatten_append, ih, List.map_singleton,
      List.flatten_singleton, Nat.succ_mul, List.take_add]
    rfl

theorem flatten_pages_of_length_le (h : l.length ≤ m * n) :
    ((List.range m).map fun k => page n k l).flatten = l := by
  rw [flatten_pages, List.take_of_length_le h]

theorem flatten_perm {u v : ℕ → List β} (h : ∀ k < m, (u k).Perm (v k)) :
    ((List.range m).map u).flatten.Perm ((List.range m).map v).flatten := by
  induction m with
  | zero => exact List.Perm.refl _
  | succ m ih =>
    simp only [List.range_succ, List.map_append, List.flatten_append, List.map_singleton,
      List.flatten_singleton]
    exact (ih fun k hk => h k (Nat.lt_succ_of_lt hk)).append (h m (Nat.lt_succ_self m))

/-- If only one page differs, then it has the same rows. -/
theorem perm_of_flatten_perm {u v : ℕ → List β} (hk : k < m) (h : ∀ j ≠ k, u j = v j)
    (hp : ((List.range m).map u).flatten.Perm ((List.range m).map v).flatten) :
    (u k).Perm (v k) := by
  induction m with
  | zero => cases hk
  | succ m ih =>
    simp only [List.range_succ, List.map_append, List.flatten_append, List.map_singleton,
      List.flatten_singleton] at hp
    by_cases hm : k = m
    · subst hm
      have hbefore : (List.range k).map u = (List.range k).map v := by
        refine List.map_congr_left fun j hj => h j ?_
        exact (List.mem_range.1 hj).ne
      rw [hbefore] at hp
      exact (List.perm_append_left_iff _).1 hp
    · rw [h m (Ne.symm hm)] at hp
      refine ih ?_ ((List.perm_append_right_iff _).1 hp)
      omega

/-! ## Orders -/

variable [LinearOrder κ] {key : α → κ} {f : α → β} {c : κ} {a b : α}

/-- The rows by descending keys. -/
structure IsOrder (key : α → κ) (rows order : List α) : Prop where
  perm : order.Perm rows
  desc : order.Pairwise fun a b => key b ≤ key a

theorem exists_isOrder (key : α → κ) (rows : List α) : ∃ order, IsOrder key rows order := by
  have : Std.Total fun a b : α => key b ≤ key a := ⟨fun a b => le_total (key b) (key a)⟩
  have : IsTrans α fun a b => key b ≤ key a := ⟨fun _ _ _ hab hbc => hbc.trans hab⟩
  exact ⟨rows.insertionSort fun a b => key b ≤ key a, List.perm_insertionSort _ _,
    List.pairwise_insertionSort _ _⟩

/-- Ordered rows are those before the ones with a key, these, and those behind them. -/
theorem split_desc (h : l.Pairwise fun a b => key b ≤ key a) (c : κ) :
    l = l.filter (c < key ·) ++ (l.filter (key · = c) ++ l.filter (key · < c)) := by
  induction l with
  | nil => rfl
  | cons a l ih =>
    obtain ⟨ha, hl⟩ := List.pairwise_cons.1 h
    have hnone : ¬ c < key a → l.filter (c < key ·) = [] := by
      intro hca
      refine List.filter_eq_nil_iff.2 fun b hb => ?_
      simpa using (ha b hb).trans (not_lt.1 hca)
    rcases lt_trichotomy c (key a) with hc | rfl | hc
    · simp only [List.filter_cons, hc, hc.ne', hc.not_gt, decide_true, decide_false, if_true,
        Bool.false_eq_true, if_false, List.cons_append]
      rw [← ih hl]
    · have hi := ih hl
      rw [hnone (lt_irrefl _), List.nil_append] at hi
      simp only [List.filter_cons, lt_irrefl, hnone (lt_irrefl _), decide_true, decide_false,
        if_true, Bool.false_eq_true, if_false, List.nil_append, List.cons_append]
      rw [← hi]
    · have hnone' : l.filter (key · = c) = [] := by
        refine List.filter_eq_nil_iff.2 fun b hb => ?_
        simpa using ((ha b hb).trans_lt hc).ne
      have hi := ih hl
      rw [hnone hc.not_gt, hnone', List.nil_append, List.nil_append] at hi
      simp only [List.filter_cons, hc, hc.ne, hc.not_gt, hnone hc.not_gt, hnone', decide_true,
        decide_false, if_true, Bool.false_eq_true, if_false, List.nil_append]
      rw [← hi]

/-- The rows of the key `c` stand on both sides of the position `p`. -/
def Straddles (key : α → κ) (rows : List α) (c : κ) (p : ℕ) : Prop :=
  rows.countP (c < key ·) < p ∧ p < rows.countP (c ≤ key ·)

theorem countP_le_eq_add (rows : List α) (c : κ) :
    rows.countP (c ≤ key ·) = rows.countP (c < key ·) + (rows.filter (key · = c)).length := by
  rw [← List.countP_eq_length_filter]
  induction rows with
  | nil => rfl
  | cons a rows ih =>
    simp only [List.countP_cons, ih, decide_eq_true_eq]
    rcases lt_trichotomy c (key a) with hc | hc | hc
    · simp only [hc.le, hc, hc.ne', if_true, if_false]
      omega
    · subst hc
      simp only [le_refl, lt_irrefl, if_true, if_false]
      omega
    · simp only [hc.not_ge, hc.not_gt, hc.ne, if_false]
      omega

/-- An order of rows and the position of the rows of a key in it. -/
theorem IsOrder.length_before (h : IsOrder key rows order) (c : κ) :
    (order.filter (c < key ·)).length = rows.countP (c < key ·) := by
  rw [← List.countP_eq_length_filter, h.perm.countP_eq]

theorem IsOrder.length_same (h : IsOrder key rows order) (c : κ) :
    (order.filter (key · = c)).length = (rows.filter (key · = c)).length :=
  (h.perm.filter _).length_eq

/-- The beginning of an order, up to a position between the rows of a key. -/
theorem IsOrder.take_eq (h : IsOrder key rows order) (hlow : rows.countP (c < key ·) ≤ p)
    (hhigh : p ≤ rows.countP (c ≤ key ·)) :
    order.take p = order.filter (c < key ·) ++
      (order.filter (key · = c)).take (p - rows.countP (c < key ·)) := by
  have hlength := h.length_before c
  have hsame := h.length_same c
  rw [countP_le_eq_add] at hhigh
  have hbefore : (order.filter (c < key ·)).take p = order.filter (c < key ·) :=
    List.take_of_length_le (hlength.trans_le hlow)
  have hbehind : p - rows.countP (c < key ·) - (order.filter (key · = c)).length = 0 := by omega
  conv_lhs => rw [split_desc h.desc c]
  rw [List.take_append, List.take_append, hbefore, hlength, hbehind, List.take_zero,
    List.append_nil]

/-- The row at a position is one of the rows of its key. -/
theorem IsOrder.position (h : IsOrder key rows order) (ha : order[p]? = some a) :
    rows.countP (key a < key ·) ≤ p ∧ p < rows.countP (key a ≤ key ·) := by
  have hlength := h.length_before (key a)
  have hsame := h.length_same (key a)
  rw [countP_le_eq_add]
  rw [split_desc h.desc (key a)] at ha
  constructor
  · by_contra hlt
    rw [not_le, ← hlength] at hlt
    rw [List.getElem?_append_left hlt] at ha
    have hmem := (List.mem_filter.1 (List.mem_of_getElem? ha)).2
    exact lt_irrefl _ (of_decide_eq_true hmem)
  · by_contra hge
    rw [not_lt, ← hlength, ← hsame] at hge
    rw [List.getElem?_append_right (by omega), List.getElem?_append_right (by omega)] at ha
    have hmem := (List.mem_filter.1 (List.mem_of_getElem? ha)).2
    exact lt_irrefl _ (of_decide_eq_true hmem)

/-! ## Boundaries between rows that are shown alike -/

/-- The rows of a key on both sides of the position are shown alike. -/
def TiesAlike (key : α → κ) (f : α → β) (rows : List α) (p : ℕ) : Prop :=
  ∀ a ∈ rows, ∀ b ∈ rows, key a = key b → f a ≠ f b → ¬ Straddles key rows (key a) p

/-- The rows of a key on both sides of such a position. -/
theorem TiesAlike.map_filter_eq (h : TiesAlike key f rows p) (ha : a ∈ rows)
    (hs : Straddles key rows (key a) p) (ho : IsOrder key rows order) :
    (order.filter (key · = key a)).map f =
      List.replicate (rows.filter (key · = key a)).length (f a) := by
  rw [List.eq_replicate_iff, List.length_map]
  refine ⟨ho.length_same _, fun x hx => ?_⟩
  obtain ⟨b, hb, rfl⟩ := List.mem_map.1 hx
  obtain ⟨hmem, hkey⟩ := List.mem_filter.1 hb
  by_contra hne
  exact h a ha b (ho.perm.mem_iff.1 hmem) (of_decide_eq_true hkey).symm (Ne.symm hne) hs

/-- What is shown in front of such a position does not depend on the order. -/
theorem TiesAlike.take_perm (h : TiesAlike key f rows p) (ho : IsOrder key rows order)
    (ho' : IsOrder key rows order') :
    ((order.take p).map f).Perm ((order'.take p).map f) := by
  have hperm : order.Perm order' := ho.perm.trans ho'.perm.symm
  rcases lt_or_ge p order.length with hp | hp
  · have hget := List.getElem?_eq_getElem hp
    generalize order[p] = a at hget
    have ha : a ∈ rows := ho.perm.mem_iff.1 (List.mem_of_getElem? hget)
    obtain ⟨hlow, hhigh⟩ := ho.position hget
    rw [ho.take_eq hlow hhigh.le, ho'.take_eq hlow hhigh.le, List.map_append, List.map_append]
    refine ((hperm.filter _).map f).append ?_
    rcases hlow.eq_or_lt with heq | hlt
    · rw [heq, Nat.sub_self, List.take_zero, List.take_zero]
    · rw [List.map_take, List.map_take, h.map_filter_eq ha ⟨hlt, hhigh⟩ ho,
        h.map_filter_eq ha ⟨hlt, hhigh⟩ ho']
  · rw [List.take_of_length_le hp, List.take_of_length_le (hperm.length_eq ▸ hp)]
    exact hperm.map f

/-- What a page between two such positions shows does not depend on the order. -/
theorem page_perm (h : TiesAlike key f rows (k * n)) (h' : TiesAlike key f rows ((k + 1) * n))
    (ho : IsOrder key rows order) (ho' : IsOrder key rows order') :
    ((page n k order).map f).Perm ((page n k order').map f) := by
  have hboth := h'.take_perm ho ho'
  rw [Nat.succ_mul, List.take_add, List.take_add, List.map_append, List.map_append] at hboth
  refine (List.perm_append_left_iff ((order.take (k * n)).map f)).1 (hboth.trans ?_)
  exact ((h.take_perm ho ho').symm).append_right _

/-! ## Boundaries between rows that are shown differently -/

/-- The rows of a key, in any order, between those of greater and of smaller keys. -/
theorem IsOrder.replace {same : List α} (h : IsOrder key rows order)
    (hp : same.Perm (rows.filter (key · = c))) :
    IsOrder key rows
      (order.filter (c < key ·) ++ (same ++ order.filter (key · < c))) where
  perm := by
    have hsame : same.Perm (order.filter (key · = c)) := hp.trans (h.perm.filter _).symm
    refine (List.Perm.append_left _ (hsame.append_right _)).trans ?_
    rw [← split_desc h.desc c]
    exact h.perm
  desc := by
    have hgreater : ∀ a ∈ order.filter (c < key ·), c < key a := fun a ha =>
      of_decide_eq_true (List.mem_filter.1 ha).2
    have hequal : ∀ a ∈ same, key a = c := fun a ha =>
      of_decide_eq_true (List.mem_filter.1 (hp.mem_iff.1 ha)).2
    have hless : ∀ a ∈ order.filter (key · < c), key a < c := fun a ha =>
      of_decide_eq_true (List.mem_filter.1 ha).2
    refine List.pairwise_append.2 ⟨h.desc.sublist List.filter_sublist,
      List.pairwise_append.2 ⟨?_, h.desc.sublist List.filter_sublist, ?_⟩, ?_⟩
    · exact List.pairwise_of_forall_mem_list fun a ha b hb =>
        ((hequal b hb).trans (hequal a ha).symm).le
    · intro a ha b hb
      exact (hless b hb).le.trans (hequal a ha).ge
    · intro a ha b hb
      rcases List.mem_append.1 hb with hb | hb
      · exact (hequal b hb).trans_le (hgreater a ha).le
      · exact (hless b hb).le.trans (hgreater a ha).le

/-- Two different elements in front. -/
theorem exists_perm_cons_cons (ha : a ∈ l) (hb : b ∈ l) (hne : a ≠ b) :
    ∃ rest, l.Perm (a :: b :: rest) := by
  obtain ⟨s, t, rfl⟩ := List.append_of_mem ha
  have hperm : (s ++ a :: t).Perm (a :: (s ++ t)) := List.perm_middle
  have hb' : b ∈ s ++ t := (List.mem_cons.1 (hperm.mem_iff.1 hb)).resolve_left (Ne.symm hne)
  obtain ⟨s', t', he⟩ := List.append_of_mem hb'
  refine ⟨s' ++ t', hperm.trans (List.Perm.cons _ ?_)⟩
  rw [he]
  exact List.perm_middle

/-- A position between two rows of a key can have either of them in front of it. -/
theorem exists_orders (ha : a ∈ rows) (hb : b ∈ rows) (hkey : key a = key b) (hne : a ≠ b)
    (hs : Straddles key rows (key a) p) :
    ∃ before rest, (before.length + 1 = p) ∧
      IsOrder key rows (before ++ a :: b :: rest) ∧
      IsOrder key rows (before ++ b :: a :: rest) := by
  obtain ⟨order, ho⟩ := exists_isOrder key rows
  obtain ⟨hlow, hhigh⟩ := hs
  have hfilter : ∀ x ∈ rows, key x = key a → x ∈ rows.filter (key · = key a) := fun x hx he =>
    List.mem_filter.2 ⟨hx, decide_eq_true he⟩
  obtain ⟨same, hperm⟩ := exists_perm_cons_cons (hfilter a ha rfl) (hfilter b hb hkey.symm) hne
  have hlength := hperm.length_eq
  rw [List.length_cons, List.length_cons] at hlength
  rw [countP_le_eq_add, hlength] at hhigh
  set g := rows.countP (key a < key ·) with hg
  -- the other rows of the key fill the places up to the position
  have horder : ∀ {x y : α}, (x :: y :: same).Perm (rows.filter (key · = key a)) →
      IsOrder key rows (order.filter (key a < key ·) ++ same.take (p - g - 1) ++
        x :: y :: (same.drop (p - g - 1) ++ order.filter (key · < key a))) := by
    intro x y hxy
    have hsame : (same.take (p - g - 1) ++ x :: y :: same.drop (p - g - 1)).Perm
        (x :: y :: same) := by
      refine List.perm_middle.trans (List.Perm.cons _ (List.perm_middle.trans ?_))
      rw [List.take_append_drop]
    have h := ho.replace (hsame.trans hxy)
    simp only [List.append_assoc, List.cons_append] at h ⊢
    exact h
  refine ⟨_, _, ?_, horder hperm.symm, horder ((List.Perm.swap _ _ _).trans hperm.symm)⟩
  rw [List.length_append, ho.length_before, ← hg, List.length_take]
  omega

/-- A page that begins with the second of two rows. -/
theorem page_eq_cons {before rest : List α} (hn : 0 < n) (hb : before.length + 1 = k * n) :
    page n k (before ++ a :: b :: rest) = b :: rest.take (n - 1) := by
  obtain ⟨n, rfl⟩ := Nat.exists_eq_succ_of_ne_zero hn.ne'
  have hsplit : before ++ a :: b :: rest = (before ++ [a]) ++ b :: rest := by
    rw [List.append_assoc, List.singleton_append]
  have hlength : (before ++ [a]).length = k * (n + 1) := by
    rw [List.length_append, List.length_singleton, hb]
  rw [page, hsplit, List.drop_left' hlength, List.take_succ_cons]
  rfl

/-- The pages of an order show every row once. -/
theorem IsOrder.flatten_pages_perm (h : IsOrder key rows order) (hm : rows.length ≤ m * n)
    (f : α → β) :
    ((List.range m).map fun k => (page n k order).map f).flatten.Perm (rows.map f) := by
  have hflat := congrArg (List.map f)
    (flatten_pages_of_length_le (h.perm.length_eq.trans_le hm))
  rw [List.map_flatten, List.map_map] at hflat
  exact (List.Perm.of_eq hflat).trans (h.perm.map f)

/-- **Pages of an order with ties.** Whatever orders the queries choose, the pages show every row
    once iff the rows of one key that stand on both sides of a page boundary are shown alike. -/
theorem pages_perm_iff (key : α → κ) (f : α → β) (rows : List α) (hn : 0 < n)
    (hm : rows.length ≤ m * n) :
    (∀ orders : ℕ → List α, (∀ k < m, IsOrder key rows (orders k)) →
      ((List.range m).map fun k => (page n k (orders k)).map f).flatten.Perm (rows.map f)) ↔
    ∀ k, TiesAlike key f rows (k * n) := by
  constructor
  · rintro h k a ha b hb hkey hne hs
    have hlt : k * n < m * n := (hs.2.trans_le List.countP_le_length).trans_le hm
    obtain ⟨before, rest, hlength, ho, ho'⟩ :=
      exists_orders ha hb hkey (fun he => hne (congrArg f he)) hs
    -- page `k` is taken from the other order
    have hall := h (fun j => if j = k then before ++ b :: a :: rest else before ++ a :: b :: rest)
      (fun j _ => by
        split_ifs
        · exact ho'
        · exact ho)
    have hcancel := perm_of_flatten_perm (Nat.lt_of_mul_lt_mul_right hlt)
      (v := fun j => (page n j (before ++ a :: b :: rest)).map f)
      (fun j hj => by rw [if_neg hj]) (hall.trans (ho.flatten_pages_perm hm f).symm)
    rw [if_pos rfl, page_eq_cons hn hlength, page_eq_cons hn hlength] at hcancel
    have hsingle : [f a].Perm [f b] :=
      (List.perm_append_right_iff ((rest.take (n - 1)).map f)).1 hcancel
    exact hne (List.singleton_perm_singleton.1 hsingle)
  · intro h orders ho
    obtain ⟨order, horder⟩ := exists_isOrder key rows
    exact (flatten_perm fun k hk => page_perm (h k) (h (k + 1)) (ho k hk) horder).trans
      (horder.flatten_pages_perm hm f)

end Sql
