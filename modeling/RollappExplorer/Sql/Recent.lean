/-
  The greatest rows of a table that does not keep all rows.

  * `Retains`: a row is kept at least while fewer than `n` rows have a greater key;
  * `Retains.order_iff`: the first `n` rows by descending keys are the same ones, with and
    without the rows that are not kept, in every order of the rows that have the same key;
  * `Retains.length`: so is their number, up to `n`.
-/
import Mathlib.Data.List.Perm.Basic
import RollappExplorer.Sql.Paging

namespace Sql

variable {α β κ : Type} [LinearOrder κ] {key : α → κ} {n : ℕ} {rows rows' kept order : List α}
  {p : α → Bool} {f : β → α} {l : List β}

/-! ## Orders of parts -/

/-- Rows that are ordered by a function of another list. -/
theorem isOrder_map_iff :
    IsOrder key (l.map f) order ↔ ∃ order', IsOrder (key ∘ f) l order' ∧ order = order'.map f := by
  constructor
  · rintro ⟨hperm, hdesc⟩
    obtain ⟨order', rfl, hl⟩ : Relation.Comp (· = List.map f ·) List.Perm order l := by
      rw [List.eq_map_comp_perm]
      exact hperm
    exact ⟨order', ⟨hl, List.pairwise_map.1 hdesc⟩, rfl⟩
  · rintro ⟨order', ⟨hperm, hdesc⟩, rfl⟩
    exact ⟨hperm.map f, List.pairwise_map.2 hdesc⟩

theorem IsOrder.of_perm (h : IsOrder key rows order) (hp : rows.Perm rows') :
    IsOrder key rows' order :=
  ⟨h.perm.trans hp, h.desc⟩

theorem IsOrder.filter (h : IsOrder key rows order) (p : α → Bool) :
    IsOrder key (rows.filter p) (order.filter p) :=
  ⟨h.perm.filter p, h.desc.filter p⟩

/-- With a row, those of greater keys satisfy the condition. -/
def Upward (key : α → κ) (p : α → Bool) : Prop :=
  ∀ a b, p a = true → key a ≤ key b → p b = true

/-- The rows that satisfy such a condition come first. -/
theorem eq_append_of_desc (hdesc : order.Pairwise fun a b => key b ≤ key a)
    (hp : Upward key p) : order = order.filter p ++ order.filter (! p ·) := by
  induction order with
  | nil => rfl
  | cons a order ih =>
    obtain ⟨ha, hdesc⟩ := List.pairwise_cons.1 hdesc
    cases hpa : p a with
    | true =>
      simp only [List.filter_cons, hpa, if_true, Bool.not_true, Bool.false_eq_true, if_false,
        List.cons_append]
      rw [← ih hdesc]
    | false =>
      have hnone : order.filter p = [] := by
        refine List.filter_eq_nil_iff.2 fun b hb hpb => ?_
        rw [hp b a hpb (ha b hb)] at hpa
        cases hpa
      have hall : order.filter (! p ·) = order := by
        rw [ih hdesc, hnone, List.nil_append, List.filter_filter]
        simp only [Bool.and_self]
      simp only [List.filter_cons, hpa, hnone, hall, Bool.false_eq_true, if_false, Bool.not_false,
        if_true, List.nil_append]

/-- An order of these rows, followed by one of the others. -/
theorem IsOrder.append {order' : List α} (h : IsOrder key (rows.filter p) order)
    (h' : IsOrder key (rows.filter (! p ·)) order') (hp : Upward key p) :
    IsOrder key rows (order ++ order') := by
  refine ⟨(h.perm.append h'.perm).trans (List.filter_append_perm p rows),
    List.pairwise_append.2 ⟨h.desc, h'.desc, fun a ha b hb => le_of_not_gt fun hlt => ?_⟩⟩
  have hpa := (List.mem_filter.1 (h.perm.mem_iff.1 ha)).2
  have hpb := (List.mem_filter.1 (h'.perm.mem_iff.1 hb)).2
  rw [hp a b hpa hlt.le] at hpb
  cases hpb

/-- Rows that agree on such a condition have orders that begin alike. -/
theorem IsOrder.exists_take_eq (h : IsOrder key rows order) (hp : Upward key p)
    (hrows : (rows.filter p).Perm (rows'.filter p))
    (hn : n ≤ (rows.filter p).length ∨
      rows.filter (! p ·) = [] ∧ rows'.filter (! p ·) = []) :
    ∃ order', IsOrder key rows' order' ∧ order'.take n = order.take n := by
  obtain ⟨rest, hrest⟩ := exists_isOrder key (rows'.filter (! p ·))
  refine ⟨_, ((h.filter p).of_perm hrows).append hrest hp, ?_⟩
  have hlength : (order.filter p).length = (rows.filter p).length := (h.filter p).perm.length_eq
  conv_rhs => rw [eq_append_of_desc h.desc hp]
  rcases hn with hn | ⟨hnil, hnil'⟩
  · rw [List.take_append_of_le_length (hlength ▸ hn), List.take_append_of_le_length (hlength ▸ hn)]
  · have hrest' : rest = [] := List.perm_nil.1 (hnil' ▸ hrest.perm)
    have horder : order.filter (! p ·) = [] := List.perm_nil.1 (hnil ▸ (h.filter _).perm)
    rw [hrest', horder]

/-! ## Rows that are kept -/

/-- At least the rows are kept that have fewer than `n` greater ones. -/
structure Retains (key : α → κ) (n : ℕ) (rows kept : List α) : Prop where
  nodup : rows.Nodup
  nodup_kept : kept.Nodup
  subset : kept ⊆ rows
  top : ∀ a ∈ rows, rows.countP (key a < key ·) < n → a ∈ kept

/-- Fewer than `n` rows have greater keys. -/
def isTop (key : α → κ) (n : ℕ) (rows : List α) (a : α) : Bool :=
  rows.countP (key a < key ·) < n

theorem upward_isTop : Upward key (isTop key n rows) := by
  intro a b ha hle
  refine decide_eq_true (lt_of_le_of_lt (List.countP_mono_left fun x _ hx => ?_)
    (of_decide_eq_true ha))
  exact decide_eq_true (lt_of_le_of_lt hle (of_decide_eq_true hx))

/-- There are `n` such rows if there are `n` rows. -/
theorem length_filter_isTop :
    n ≤ (rows.filter (isTop key n rows)).length ∨ ∀ a ∈ rows, isTop key n rows a = true := by
  rw [or_iff_not_imp_left, not_le]
  intro hlt a ha
  obtain ⟨order, horder⟩ := exists_isOrder key rows
  have hsplit := eq_append_of_desc horder.desc (upward_isTop : Upward key (isTop key n rows))
  cases hrest : order.filter (! isTop key n rows ·) with
  | nil =>
    rw [hrest, List.append_nil] at hsplit
    have hmem := horder.perm.mem_iff.2 ha
    rw [hsplit] at hmem
    exact (List.mem_filter.1 hmem).2
  | cons b rest =>
    have hb := (List.mem_filter.1 (hrest ▸ List.mem_cons_self : b ∈ order.filter _)).2
    have hdesc := horder.desc
    rw [hsplit, hrest] at hdesc
    have hbefore : ∀ x ∈ b :: rest, ¬ key b < key x := by
      intro x hx
      rcases List.mem_cons.1 hx with rfl | hx
      · exact lt_irrefl _
      · exact not_lt.2 ((List.pairwise_cons.1 (List.pairwise_append.1 hdesc).2.1).1 x hx)
    have hnone : (b :: rest).countP (key b < key ·) = 0 :=
      List.countP_eq_zero.2 fun x hx => by simpa using hbefore x hx
    have hcount : rows.countP (key b < key ·) ≤ (rows.filter (isTop key n rows)).length :=
      calc rows.countP (key b < key ·)
        _ = order.countP (key b < key ·) := (horder.perm.countP_eq _).symm
        _ = (order.filter (isTop key n rows)).countP (key b < key ·) := by
          conv_lhs => rw [hsplit, hrest, List.countP_append, hnone, Nat.add_zero]
        _ ≤ (order.filter (isTop key n rows)).length := List.countP_le_length
        _ = (rows.filter (isTop key n rows)).length := (horder.filter _).perm.length_eq
    have htop : isTop key n rows b = true := decide_eq_true (lt_of_le_of_lt hcount hlt)
    rw [htop] at hb
    cases hb

namespace Retains

theorem filter_perm (h : Retains key n rows kept) :
    (kept.filter (isTop key n rows)).Perm (rows.filter (isTop key n rows)) := by
  refine (List.perm_ext_iff_of_nodup (h.nodup_kept.filter _) (h.nodup.filter _)).2 fun a => ?_
  rw [List.mem_filter, List.mem_filter]
  exact ⟨fun ⟨ha, ht⟩ => ⟨h.subset ha, ht⟩,
    fun ⟨ha, ht⟩ => ⟨h.top a ha (of_decide_eq_true ht), ht⟩⟩

/-- Either there are `n` rows, or all are kept. -/
theorem enough (h : Retains key n rows kept) :
    n ≤ (rows.filter (isTop key n rows)).length ∨
      rows.filter (! isTop key n rows ·) = [] ∧ kept.filter (! isTop key n rows ·) = [] := by
  refine length_filter_isTop.imp_right fun hall => ?_
  rw [List.filter_eq_nil_iff, List.filter_eq_nil_iff]
  exact ⟨fun a ha => by simp [hall a ha], fun a ha => by simp [hall a (h.subset ha)]⟩

/-- **The first rows are kept.**  The first `n` rows by descending keys are those of the rows
    that are kept. -/
theorem order_iff (h : Retains key n rows kept) (top : List α) :
    (∃ order, IsOrder key kept order ∧ order.take n = top) ↔
      ∃ order, IsOrder key rows order ∧ order.take n = top := by
  have hlength := h.filter_perm.length_eq
  constructor
  · rintro ⟨order, ho, rfl⟩
    exact ho.exists_take_eq upward_isTop h.filter_perm (hlength ▸ h.enough.imp_right And.symm)
  · rintro ⟨order, ho, rfl⟩
    exact ho.exists_take_eq upward_isTop h.filter_perm.symm h.enough

/-- Up to `n`, the number of rows is known. -/
theorem length (h : Retains key n rows kept) :
    kept.length = rows.length ∨ n ≤ kept.length ∧ n ≤ rows.length := by
  have hkept := List.length_filter_le (isTop key n rows) kept
  have hrows := List.length_filter_le (isTop key n rows) rows
  rcases h.enough with hn | ⟨hnil, hnil'⟩
  · rw [h.filter_perm.length_eq] at hkept
    exact .inr ⟨hn.trans hkept, hn.trans hrows⟩
  · have hall := (List.filter_append_perm (isTop key n rows) rows).length_eq
    have hall' := (List.filter_append_perm (isTop key n rows) kept).length_eq
    rw [hnil, List.append_nil] at hall
    rw [hnil', List.append_nil, h.filter_perm.length_eq, hall] at hall'
    exact .inl hall'.symm

end Retains

end Sql
