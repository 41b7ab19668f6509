/-
  Texts of JavaScript: letter case and code units.

  The case mappings are those of Unicode.  Only what they do to texts of ASCII characters is
  written out here.

  * `CaseMapping`: `toLowerCase` and `toUpperCase`;
  * `forall_range`: a property of the characters between two;
  * `Units`: a text as its UTF-16 code units, which need not be those of characters; `isSpace`,
    `isDot`: classes of regular expressions;
  * `trim`: a text without the white space around it.
-/
import Mathlib.Data.Nat.Notation
import Mathlib.Tactic.Common

namespace Js

/-- The characters of ASCII. -/
def IsAscii (s : String) : Prop := ∀ c ∈ s.toList, c.toNat < 128

/-- `toLowerCase` and `toUpperCase`. -/
structure CaseMapping where
  toLowerCase : String → String
  toUpperCase : String → String
  toLowerCase_ascii : ∀ s, IsAscii s → (toLowerCase s).toList = s.toList.map Char.toLower
  toUpperCase_ascii : ∀ s, IsAscii s → (toUpperCase s).toList = s.toList.map Char.toUpper

instance : Inhabited CaseMapping :=
  ⟨⟨fun s => String.ofList (s.toList.map Char.toLower),
    fun s => String.ofList (s.toList.map Char.toUpper),
    fun _ _ => String.toList_ofList, fun _ _ => String.toList_ofList⟩⟩

/-- A property of the characters from `lo` to `hi`. -/
theorem forall_range {P : Char → Prop} {lo hi c : Char} (hlo : lo ≤ c) (hhi : c ≤ hi)
    (h : ∀ n < hi.toNat - lo.toNat + 1, P (Char.ofNat (lo.toNat + n))) : P c := by
  have hlo' : lo.toNat ≤ c.toNat := hlo
  have hhi' : c.toNat ≤ hi.toNat := hhi
  have hc := h (c.toNat - lo.toNat) (by omega)
  rwa [Nat.add_sub_cancel' hlo', Char.ofNat_toNat] at hc

/-! ## Code units -/

/-- A text as its UTF-16 code units. -/
abbrev Units := List UInt16

/-- The code units of a text of ASCII characters. -/
def units (s : String) : Units := s.toList.map fun c => UInt16.ofNat c.toNat

/-- `length`: the number of code units. -/
def length (s : String) : ℕ :=
  s.toList.foldl (fun n c => n + if c.toNat < 0x10000 then 1 else 2) 0

/-- Of characters with one code unit each, the length is their number. -/
theorem length_eq {s : String} (h : ∀ c ∈ s.toList, c.toNat < 0x10000) :
    length s = s.toList.length := by
  have hadd : ∀ (l : List Char) (n : ℕ), (∀ c ∈ l, c.toNat < 0x10000) →
      l.foldl (fun n c => n + if c.toNat < 0x10000 then 1 else 2) n = n + l.length := by
    intro l
    induction l with
    | nil => exact fun _ _ => rfl
    | cons c l ih =>
      intro n hall
      obtain ⟨hc, hl⟩ := List.forall_mem_cons.1 hall
      rw [List.foldl_cons, if_pos hc, ih _ hl, List.length_cons, Nat.add_assoc, Nat.add_comm 1]
  rw [length, hadd _ 0 h, Nat.zero_add]

/-- `\s` -/
def isSpace (u : UInt16) : Bool :=
  u ∈ [0x09, 0x0A, 0x0B, 0x0C, 0x0D, 0x20, 0xA0, 0x1680, 0x2000, 0x2001, 0x2002, 0x2003, 0x2004,
    0x2005, 0x2006, 0x2007, 0x2008, 0x2009, 0x200A, 0x2028, 0x2029, 0x202F, 0x205F, 0x3000, 0xFEFF]

/-- White space: the characters of `\s`. -/
def isWhiteSpace (c : Char) : Bool := c.toNat < 0x10000 && isSpace (UInt16.ofNat c.toNat)

/-- `trim()` -/
def trim (s : String) : String :=
  String.ofList ((s.toList.dropWhile isWhiteSpace).reverse.dropWhile isWhiteSpace).reverse

/-- `.` -/
def isDot (u : UInt16) : Bool := u ∉ [0x0A, 0x0D, 0x2028, 0x2029]

/-- The classes of the characters of a text. -/
def exactly (s : String) : List (UInt16 → Bool) := (units s).map fun u v => v == u

end Js
