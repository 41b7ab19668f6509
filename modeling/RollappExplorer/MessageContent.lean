/-
  The content of a message, with its addresses as links (`utils/transaction.ts`).

  * `ctsRegex`, `translateCts`: the content is split at its address markers, and every other part
    is converted;
  * `CtsContent`: texts without a marker, and markers between them;
  * `translateCts_split`: the parts of a content;
  * `translated_iff`: its addresses are converted and its texts are not iff it begins with a
    marker or has none.
-/
import RollappExplorer.Js.Split
import RollappExplorer.Js.Text

namespace RollappExplorer

open Js

/-! ## Markers -/

/-- `[a-z\d]` -/
def isLowerAlnum (u : UInt16) : Bool := (0x61 ≤ u && u ≤ 0x7A) || (0x30 ≤ u && u ≤ 0x39)

/-- `{\[{\s.\[address\].\[([a-z\d]+)\].\s}]}` -/
def ctsRegex : Pattern UInt16 where
  before := exactly "\x7b[\x7b" ++ [isSpace, isDot] ++ exactly "[address]" ++ [isDot] ++ exactly "["
  group := isLowerAlnum
  close := fun u => u == 0x5D
  after := [isDot, isSpace] ++ exactly "\x7d]\x7d"
  disjoint := by
    intro u hu
    refine beq_eq_false_iff_ne.2 ?_
    rintro rfl
    cases hu

/-- A part of the translated content: a text, or what a part was converted to. -/
abbrev CtsPart (ν : Type) := Units ⊕ ν

/-- The parts of a message content; `convertAddressToLink` makes the others. -/
def translateCts {ν : Type} (ctm : Units) (convertAddressToLink : Units → ℕ → ν) :
    List (CtsPart ν) :=
  let splitted := ctsRegex.split ctm
  if splitted.length = 1 then [.inl ctm]
  else
    let splitted := if splitted.head? = some [] then splitted.tail else splitted
    splitted.zipIdx.map fun (part, idx) =>
      if idx % 2 = 1 then .inl part else .inr (convertAddressToLink part idx)

/-- The text contains no marker. -/
def Unmarked (text : Units) : Prop :=
  ∀ a m b address, text = a ++ (m ++ b) → ¬ ctsRegex.Matches m address

/-- A marker of an address, and the text behind it. -/
structure MarkedText where
  marker : Units
  address : Units
  text : Units
  isMarker : ctsRegex.Matches marker address
  unmarked : Unmarked text

/-- A content: texts, of which some may be empty, with markers between them. -/
structure CtsContent where
  first : Units
  unmarked : Unmarked first
  marked : List MarkedText

def MarkedText.ctm (m : MarkedText) : Units := m.marker ++ m.text

def CtsContent.ctm (c : CtsContent) : Units := c.first ++ c.marked.flatMap (·.ctm)

/-! ## Matches do not overlap -/

/-- The form of a marker. -/
theorem marker_form {m address : Units} (h : ctsRegex.Matches m address) :
    ∃ w a b c w', m = 0x7B :: 0x5B :: 0x7B :: w :: a :: 0x5B :: 0x61 :: 0x64 :: 0x64 :: 0x72 ::
        0x65 :: 0x73 :: 0x73 :: 0x5D :: b :: 0x5B :: (address ++
          [0x5D, c, w', 0x7D, 0x5D, 0x7D]) ∧
      isSpace w = true ∧ isSpace w' = true ∧ address ≠ [] ∧
        ∀ u ∈ address, isLowerAlnum u = true := by
  obtain ⟨x, c, y, rfl, hx, hne, haddress, hc, hy⟩ := h
  have hbefore : ctsRegex.before = [(· == 0x7B), (· == 0x5B), (· == 0x7B), isSpace, isDot,
      (· == 0x5B), (· == 0x61), (· == 0x64), (· == 0x64), (· == 0x72), (· == 0x65), (· == 0x73),
      (· == 0x73), (· == 0x5D), isDot, (· == 0x5B)] := rfl
  have hafter : ctsRegex.after = [isDot, isSpace, (· == 0x7D), (· == 0x5D), (· == 0x7D)] := rfl
  rw [hbefore] at hx
  rw [hafter] at hy
  simp only [Fits, List.forall₂_cons_left_iff, beq_iff_eq, List.forall₂_nil_left_iff,
    exists_and_left, ↓existsAndEq, true_and, exists_eq_left, and_true] at hx hy
  obtain ⟨w, a, b, ⟨hw, -, -⟩, rfl⟩ := hx
  obtain ⟨c', -, w', hw', rfl⟩ := hy
  obtain rfl : c = 0x5D := beq_iff_eq.1 hc
  exact ⟨w, a, b, c', w', rfl, hw, hw', hne, haddress⟩

/-- The text begins like a marker, as far as it goes. -/
def Opens (d : Units) : Prop := ∃ z z', d ++ z = 0x7B :: 0x5B :: 0x7B :: z'

theorem Opens.first {u : UInt16} {d : Units} (h : Opens (u :: d)) : u = 0x7B := by
  obtain ⟨z, z', h⟩ := h
  exact (List.cons.inj h).1

theorem Opens.second {u v : UInt16} {d : Units} (h : Opens (u :: v :: d)) : v = 0x5B := by
  obtain ⟨z, z', h⟩ := h
  exact (List.cons.inj (List.cons.inj h).2).1

theorem Opens.third {u v x : UInt16} {d : Units} (h : Opens (u :: v :: x :: d)) : x = 0x7B := by
  obtain ⟨z, z', h⟩ := h
  exact (List.cons.inj (List.cons.inj (List.cons.inj h).2).2).1

/-- No marker begins at a character of the text. -/
def NeverOpens (t : Units) : Prop := ∀ d, d <:+ t → d ≠ [] → ¬ Opens d

theorem NeverOpens.nil : NeverOpens [] := fun _ hd hne => absurd (List.suffix_nil.1 hd) hne

theorem NeverOpens.cons {u : UInt16} {t : Units} (hu : ¬ Opens (u :: t)) (h : NeverOpens t) :
    NeverOpens (u :: t) := by
  intro d hd hne
  rcases List.suffix_cons_iff.1 hd with rfl | hd
  · exact hu
  · exact h d hd hne

theorem NeverOpens.append {l t : Units} (hl : ∀ u ∈ l, u ≠ 0x7B) (h : NeverOpens t) :
    NeverOpens (l ++ t) := by
  induction l with
  | nil => exact h
  | cons u l ih =>
    obtain ⟨hu, hl⟩ := List.forall_mem_cons.1 hl
    exact (ih hl).cons fun hopens => hu hopens.first

/-- **Markers do not overlap**: no marker begins within a marker. -/
theorem not_opens_marker {m address b d : Units} (h : ctsRegex.Matches m address)
    (hm : m = b ++ d) (hb : b ≠ []) (hd : d ≠ []) : ¬ Opens d := by
  obtain ⟨w, x, y, c, w', rfl, hw, hw', hne, haddress⟩ := marker_form h
  have hspace : ∀ v, isSpace v = true → v ≠ 0x7B ∧ v ≠ 0x5B := by
    refine fun v hv => ⟨?_, ?_⟩
    · rintro rfl
      cases hv
    · rintro rfl
      cases hv
  have hgroup : ∀ u ∈ address, u ≠ 0x7B := by
    rintro u hu rfl
    cases haddress _ hu
  -- from the end of the marker to its second character
  have hend : NeverOpens [w', 0x7D, 0x5D, 0x7D] :=
    NeverOpens.append (l := [w', 0x7D, 0x5D, 0x7D]) (by simp [(hspace w' hw').1]) .nil
  have hclose : NeverOpens [c, w', 0x7D, 0x5D, 0x7D] :=
    hend.cons fun hopens => (hspace w' hw').2 hopens.second
  have hopen : NeverOpens (0x5B :: (address ++ [0x5D, c, w', 0x7D, 0x5D, 0x7D])) :=
    ((hclose.append (l := [0x5D]) (by simp)).append hgroup).append (l := [0x5B]) (by simp)
  have hdot : NeverOpens (y :: 0x5B :: (address ++ [0x5D, c, w', 0x7D, 0x5D, 0x7D])) := by
    refine hopen.cons fun hopens => ?_
    cases address with
    | nil => exact hne rfl
    | cons u address => exact hgroup u List.mem_cons_self hopens.third
  have hword := hdot.append (l := [0x5B, 0x61, 0x64, 0x64, 0x72, 0x65, 0x73, 0x73, 0x5D])
    (by simp)
  have hbegin : NeverOpens _ :=
    ((hword.cons (u := x) fun hopens => absurd hopens.third (by decide)).cons (u := w)
      fun hopens => (hspace w hw).1 hopens.first).cons (u := 0x7B)
        fun hopens => (hspace w hw).2 hopens.second
  have hsecond := hbegin.append (l := [0x5B]) (by simp)
  cases b with
  | nil => exact absurd rfl hb
  | cons u b => exact hsecond d ⟨b, (List.cons.inj hm).2.symm⟩ hd

theorem opens_marker {m address z : Units} (h : ctsRegex.Matches m address) {d r : Units}
    (he : d ++ r = m ++ z) : Opens d := by
  obtain ⟨w, x, y, c, w', rfl, -⟩ := marker_form h
  exact ⟨r, _, he⟩

/-! ## The parts of a content -/

/-- No marker begins in a text without markers, whatever marker comes behind it. -/
theorem Unmarked.clear {text rest : Units} (h : Unmarked text)
    (hrest : rest = [] ∨ ∃ m address z, ctsRegex.Matches m address ∧ rest = m ++ z) :
    ctsRegex.Clear text rest := by
  intro a b htext hb
  rw [Option.eq_none_iff_forall_not_mem]
  rintro ⟨address, r⟩ hexec
  obtain ⟨m, hm, he⟩ := Pattern.exec_eq_some_iff.1 hexec
  rcases List.append_eq_append_iff.1 he with ⟨d, hd, hr⟩ | ⟨d, hd, hr⟩
  · cases d with
    | nil =>
      rw [List.append_nil] at hd
      exact h a m [] address (by rw [htext, hd, List.append_nil]) hm
    | cons u d =>
      rcases hrest with rfl | ⟨m', address', z, hm', rfl⟩
      · cases hr
      · exact not_opens_marker hm hd hb (List.cons_ne_nil _ _) (opens_marker hm' hr.symm)
  · exact h a m d address (by rw [htext, hd]) hm

/-- The parts of a content: its texts, and the addresses of its markers. -/
def CtsContent.splitted (c : CtsContent) : List Units :=
  c.first :: c.marked.flatMap fun m => [m.address, m.text]

theorem split_marked (marked : List MarkedText) {first piece : Units} (h : Unmarked first) :
    ctsRegex.splitFrom piece (first ++ marked.flatMap (·.ctm)) =
      (piece ++ first) :: marked.flatMap fun m => [m.address, m.text] := by
  induction marked generalizing first piece with
  | nil =>
    rw [List.flatMap_nil, ctsRegex.splitFrom_clear (h.clear (.inl rfl)), Pattern.splitFrom]
    rfl
  | cons m marked ih =>
    have hclear : ctsRegex.Clear first ((m :: marked).flatMap (·.ctm)) :=
      h.clear (.inr ⟨m.marker, m.address, m.text ++ marked.flatMap (·.ctm), m.isMarker, by
        rw [List.flatMap_cons, MarkedText.ctm, List.append_assoc]⟩)
    rw [ctsRegex.splitFrom_clear hclear, List.flatMap_cons, MarkedText.ctm, List.append_assoc,
      Pattern.splitFrom_marker m.isMarker, ih m.unmarked, List.flatMap_cons]
    rfl

/-- **The parts of a content.** -/
theorem translateCts_split (c : CtsContent) : ctsRegex.split c.ctm = c.splitted :=
  split_marked c.marked c.unmarked

/-! ## The translated parts -/

/-- The parts without empty texts; of a converted part, what was converted. -/
def shown (parts : List (CtsPart (Units × ℕ))) : List (CtsPart Units) :=
  parts.filterMap fun
    | .inl text => if text = [] then none else some (.inl text)
    | .inr (part, _) => some (.inr part)

/-- The texts and the addresses of a content, without empty texts. -/
def CtsContent.expected (c : CtsContent) : List (CtsPart Units) :=
  shown (.inl c.first :: c.marked.flatMap fun m => [.inr (m.address, 0), .inl m.text])

/-- Exactly the addresses are converted, and the texts are shown as they are, in order. -/
def CtsContent.Translated (c : CtsContent) : Prop :=
  shown (translateCts c.ctm Prod.mk) = c.expected

theorem shown_cons (part : CtsPart (Units × ℕ)) (parts : List (CtsPart (Units × ℕ))) :
    shown (part :: parts) = shown [part] ++ shown parts := by
  unfold shown
  rw [← List.filterMap_append]
  rfl

/-- Addresses at even indices are converted, and the texts behind them are not. -/
theorem shown_marked (marked : List MarkedText) {n : ℕ} (hn : n % 2 = 0) :
    shown (((marked.flatMap fun m => [m.address, m.text]).zipIdx n).map fun (part, idx) =>
        if idx % 2 = 1 then .inl part else .inr (part, idx)) =
      shown (marked.flatMap fun m => [.inr (m.address, 0), .inl m.text]) := by
  induction marked generalizing n with
  | nil => rfl
  | cons m marked ih =>
    have heven : ¬ n % 2 = 1 := by omega
    have hodd : (n + 1) % 2 = 1 := by omega
    simp only [List.flatMap_cons, List.cons_append, List.nil_append, List.zipIdx_cons,
      List.map_cons]
    rw [if_neg heven, if_pos hodd, shown_cons, shown_cons _ (List.map _ _), ih (by omega),
      shown_cons (.inr (m.address, 0)), shown_cons _ (List.flatMap _ _)]
    rfl

theorem length_splitted_ne_one {c : CtsContent} (hmarked : c.marked ≠ []) :
    ¬ c.splitted.length = 1 := by
  cases hm : c.marked with
  | nil => exact absurd hm hmarked
  | cons m marked =>
    rw [CtsContent.splitted, hm, List.flatMap_cons]
    simp

/-- A text before the first marker is converted. -/
theorem not_translated {c : CtsContent} (hmarked : c.marked ≠ []) (hfirst : c.first ≠ []) :
    ¬ c.Translated := by
  have hhead : ¬ c.splitted.head? = some [] := fun h => hfirst (Option.some.inj h)
  have hshown : shown [.inl c.first] = [.inl c.first] := by simp [shown, hfirst]
  unfold CtsContent.Translated translateCts CtsContent.expected
  dsimp only
  rw [translateCts_split, if_neg (length_splitted_ne_one hmarked), if_neg hhead,
    shown_cons (.inl c.first), hshown]
  intro h
  cases h

/-- **The translation of a content** converts exactly its addresses iff it begins with a marker or
    has none. -/
theorem translated_iff (c : CtsContent) : c.Translated ↔ c.marked = [] ∨ c.first = [] := by
  constructor
  · intro h
    by_contra hnot
    obtain ⟨hmarked, hfirst⟩ := not_or.1 hnot
    exact not_translated hmarked hfirst h
  · intro h
    by_cases hmarked : c.marked = []
    · have hctm : c.ctm = c.first := by rw [CtsContent.ctm, hmarked]; simp
      have hone : c.splitted.length = 1 := by rw [CtsContent.splitted, hmarked]; rfl
      unfold CtsContent.Translated translateCts CtsContent.expected
      dsimp only
      rw [translateCts_split, if_pos hone, hmarked, hctm]
      rfl
    · have hfirst := h.resolve_left hmarked
      have hhead : c.splitted.head? = some [] := congrArg some hfirst
      have htail : c.splitted.tail = c.marked.flatMap fun m => [m.address, m.text] := rfl
      unfold CtsContent.Translated translateCts CtsContent.expected
      dsimp only
      rw [translateCts_split, if_neg (length_splitted_ne_one hmarked), if_pos hhead, htail,
        shown_marked c.marked rfl, hfirst]
      rfl

/-! ## A content that begins with a text -/

/-- A marker has at least 23 characters. -/
theorem unmarked_of_length {text : Units} (h : text.length < 23) : Unmarked text := by
  rintro a m b address rfl hm
  obtain ⟨w, x, y, c, w', rfl, -, -, hne, -⟩ := marker_form hm
  have hpos := List.length_pos_iff.2 hne
  simp only [List.length_append, List.length_cons, List.length_nil] at h
  omega

def sampleMarker : MarkedText where
  marker := units "\x7b[\x7b .[address].[rol1a]. \x7d]\x7d"
  address := units "rol1a"
  text := []
  isMarker := Pattern.matches_of_exec (by decide)
  unmarked := unmarked_of_length (by decide)

/-- `from {[{ .[address].[rol1a]. }]}` -/
def textBeforeMarker : CtsContent where
  first := units "from "
  unmarked := unmarked_of_length (by decide)
  marked := [sampleMarker]

theorem not_translated_textBeforeMarker :
    textBeforeMarker.ctm = units "from \x7b[\x7b .[address].[rol1a]. \x7d]\x7d" ∧
      ¬ textBeforeMarker.Translated :=
  ⟨by decide, not_translated (List.cons_ne_nil _ _) (by decide)⟩

end RollappExplorer
