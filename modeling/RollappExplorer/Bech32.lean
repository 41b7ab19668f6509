/-
  The bech32 encoding of bytes under a human-readable part.

  * `encode`: the human-readable part, a `1`, the bytes in groups of five bits, and a checksum
    of six characters;
  * `length_data`, `mem_charset_of_mem_data`: the shape of what stands after the `1`.
-/
import Mathlib.Tactic.Common

namespace Bech32

/-- The characters of the data, by their values. -/
def charset : List Char := "qpzry9x8gf2tvdw0s3jn54khce6mua7l".toList

def toChar (v : Nat) : Char := charset.getD v 'q'

/-! ## Groups of five bits -/

/-- The number with the bits, the most significant one first. -/
def ofBits (bits : List Bool) : Nat := bits.foldl (fun n b => 2 * n + b.toNat) 0

/-- The bits in groups of five, the last one filled up with zeros. -/
def groups : List Bool → List Nat
  | a :: b :: c :: d :: e :: bits => ofBits [a, b, c, d, e] :: groups bits
  | [] => []
  | bits => [ofBits (bits ++ List.replicate (5 - bits.length) false)]

/-- The bits of a byte, the most significant one first. -/
def byteBits (b : UInt8) : List Bool := (List.range 8).map fun i => b.toNat.testBit (7 - i)

def convertBits (bytes : List UInt8) : List Nat := groups (bytes.flatMap byteBits)

/-! ## Checksum -/

def generator : List Nat := [0x3b6a57b2, 0x26508e6d, 0x1ea119fa, 0x3d4233dd, 0x2a1462b3]

def polymodStep (chk v : Nat) : Nat :=
  generator.zipIdx.foldl
    (fun c (g, i) => if (chk >>> 25).testBit i then c ^^^ g else c)
    (((chk &&& 0x1ffffff) <<< 5) ^^^ v)

def polymod (values : List Nat) : Nat := values.foldl polymodStep 1

def hrpExpand (hrp : List Char) : List Nat :=
  hrp.map (fun c => c.toNat >>> 5) ++ [0] ++ hrp.map fun c => c.toNat &&& 31

def checksum (hrp : List Char) (data : List Nat) : List Nat :=
  let mod := polymod (hrpExpand hrp ++ data ++ List.replicate 6 0) ^^^ 1
  (List.range 6).map fun i => (mod >>> (5 * (5 - i))) &&& 31

/-! ## Encoding -/

/-- The characters after the `1`. -/
def data (hrp : List Char) (bytes : List UInt8) : List Char :=
  (convertBits bytes ++ checksum hrp (convertBits bytes)).map toChar

def encode (hrp : String) (bytes : List UInt8) : String :=
  hrp ++ "1" ++ String.ofList (data hrp.toList bytes)

theorem length_groups (bits : List Bool) : (groups bits).length = (bits.length + 4) / 5 := by
  fun_induction groups bits with
  | case1 a b c d e bits ih =>
    simp only [List.length_cons, ih]
    omega
  | case2 => rfl
  | case3 bits hfive hnil =>
    have hpos := List.length_pos_iff.2 hnil
    have hlt : bits.length < 5 := by
      rcases bits with _ | ⟨a, _ | ⟨b, _ | ⟨c, _ | ⟨d, _ | ⟨e, bits⟩⟩⟩⟩⟩
      all_goals first | simp only [List.length_cons, List.length_nil]; omega | skip
      exact absurd rfl (hfive a b c d e bits)
    rw [List.length_singleton]
    omega

theorem length_data (hrp : List Char) (bytes : List UInt8) :
    (data hrp bytes).length = (8 * bytes.length + 4) / 5 + 6 := by
  have hbits : (bytes.flatMap byteBits).length = 8 * bytes.length := by
    induction bytes with
    | nil => rfl
    | cons b bytes ih =>
      simp only [List.flatMap_cons, List.length_append, List.length_cons, ih, byteBits,
        List.length_map, List.length_range]
      omega
  simp [data, convertBits, checksum, length_groups, hbits]

theorem mem_charset_of_mem_data {hrp : List Char} {bytes : List UInt8} {c : Char}
    (h : c ∈ data hrp bytes) : c ∈ charset := by
  obtain ⟨v, -, rfl⟩ := List.mem_map.1 h
  unfold toChar
  rw [List.getD_eq_getElem?_getD]
  cases hv : charset[v]? with
  | none => decide
  | some c => exact List.mem_of_getElem? hv

end Bech32
