/-
  Decoding of bech32 texts.

  * `fromWords`: the bytes of groups of five bits; `fromWords_eq_some_iff`: exactly those groups
    have some that the bytes are converted to;
  * `polymod_eq_one_iff`: a checksum is accepted iff it is the one of the encoding;
  * `decode_eq_some_iff`: the texts that are decoded are the encodings, in lower or in upper case.
-/
import Mathlib
import RollappExplorer.Bech32

namespace Bech32

/-! ## Bytes -/

/-- The bits of a group, the most significant one first. -/
def wordBits (w : Nat) : List Bool := (List.range 5).map fun i => w.testBit (4 - i)

/-- The whole bytes of the bits, and the bits that are left. -/
def bytesOfBits : List Bool → List UInt8 × List Bool
  | a :: b :: c :: d :: e :: f :: g :: h :: bits =>
    let (bytes, rest) := bytesOfBits bits
    (UInt8.ofNat (ofBits [a, b, c, d, e, f, g, h]) :: bytes, rest)
  | bits => ([], bits)

/-- The bytes of the groups, which may be filled up with less than five zeros. -/
def fromWords (words : List Nat) : Option (List UInt8) :=
  let (bytes, rest) := bytesOfBits (words.flatMap wordBits)
  if rest.length < 5 ∧ ∀ b ∈ rest, b = false then some bytes else none

theorem ofBits_wordBits : ∀ w < 32, ofBits (wordBits w) = w := by decide

theorem wordBits_ofBits : ∀ a b c d e : Bool,
    wordBits (ofBits [a, b, c, d, e]) = [a, b, c, d, e] := by decide

theorem ofBits_byteBits (b : UInt8) : ofBits (byteBits b) = b.toNat := by
  have hall : ∀ n < 256, ofBits ((List.range 8).map fun i => n.testBit (7 - i)) = n := by
    decide +kernel
  exact hall b.toNat b.toNat_lt

theorem byteBits_ofBits : ∀ a b c d e f g h : Bool,
    byteBits (UInt8.ofNat (ofBits [a, b, c, d, e, f, g, h])) = [a, b, c, d, e, f, g, h] := by
  decide +kernel

/-- The groups of bits have the bits, filled up with zeros. -/
theorem wordBits_groups (bits : List Bool) : ∃ n < 5,
    (groups bits).flatMap wordBits = bits ++ List.replicate n false := by
  fun_induction groups bits with
  | case1 a b c d e bits ih =>
    obtain ⟨n, hn, h⟩ := ih
    exact ⟨n, hn, by rw [List.flatMap_cons, wordBits_ofBits, h]; rfl⟩
  | case2 => exact ⟨0, by decide, rfl⟩
  | case3 bits hfive hnil =>
    rcases bits with _ | ⟨a, _ | ⟨b, _ | ⟨c, _ | ⟨d, _ | ⟨e, bits⟩⟩⟩⟩⟩
    · exact absurd rfl hnil
    · exact ⟨4, by decide, wordBits_ofBits a _ _ _ _⟩
    · exact ⟨3, by decide, wordBits_ofBits a b _ _ _⟩
    · exact ⟨2, by decide, wordBits_ofBits a b c _ _⟩
    · exact ⟨1, by decide, wordBits_ofBits a b c d _⟩
    · exact absurd rfl (hfive a b c d e bits)

theorem groups_wordBits {words : List Nat} (hwords : ∀ w ∈ words, w < 32) :
    groups (words.flatMap wordBits) = words := by
  induction words with
  | nil => rfl
  | cons w words ih =>
    obtain ⟨hw, hwords⟩ := List.forall_mem_cons.1 hwords
    have hcons : groups (wordBits w ++ words.flatMap wordBits) =
        ofBits (wordBits w) :: groups (words.flatMap wordBits) := rfl
    rw [List.flatMap_cons, hcons, ofBits_wordBits w hw, ih hwords]

/-- The bits that fill up the last group are zeros, so that they may be left out. -/
theorem groups_append_zeros {n : Nat} (hn : n < 5) (bits : List Bool)
    (h : (bits.length + n) % 5 = 0) : groups (bits ++ List.replicate n false) = groups bits := by
  fun_induction groups bits with
  | case1 a b c d e bits ih =>
    have htail : (bits.length + n) % 5 = 0 := by
      simp only [List.length_cons] at h
      omega
    rw [← ih htail]
    rfl
  | case2 =>
    obtain rfl : n = 0 := by
      simp only [List.length_nil] at h
      omega
    rfl
  | case3 bits hfive hnil =>
    rcases bits with _ | ⟨a, _ | ⟨b, _ | ⟨c, _ | ⟨d, _ | ⟨e, bits⟩⟩⟩⟩⟩
    · exact absurd rfl hnil
    · obtain rfl : n = 4 := by simp only [List.length_cons, List.length_nil] at h; omega
      rfl
    · obtain rfl : n = 3 := by simp only [List.length_cons, List.length_nil] at h; omega
      rfl
    · obtain rfl : n = 2 := by simp only [List.length_cons, List.length_nil] at h; omega
      rfl
    · obtain rfl : n = 1 := by simp only [List.length_cons, List.length_nil] at h; omega
      rfl
    · exact absurd rfl (hfive a b c d e bits)

theorem bytesOfBits_append (bytes : List UInt8) {rest : List Bool} (h : rest.length < 8) :
    bytesOfBits (bytes.flatMap byteBits ++ rest) = (bytes, rest) := by
  induction bytes with
  | nil =>
    rcases rest with _ | ⟨a, _ | ⟨b, _ | ⟨c, _ | ⟨d, _ | ⟨e, _ | ⟨f, _ | ⟨g, _ | ⟨i, rest⟩⟩⟩⟩⟩⟩⟩⟩
    all_goals first | rfl | (simp only [List.length_cons] at h; omega)
  | cons b bytes ih =>
    have hcons : bytesOfBits (byteBits b ++ (bytes.flatMap byteBits ++ rest)) =
        (UInt8.ofNat (ofBits (byteBits b)) :: (bytesOfBits (bytes.flatMap byteBits ++ rest)).1,
          (bytesOfBits (bytes.flatMap byteBits ++ rest)).2) := rfl
    rw [List.flatMap_cons, List.append_assoc, hcons, ih, ofBits_byteBits, UInt8.ofNat_toNat]

theorem bytesOfBits_spec (bits : List Bool) :
    bits = (bytesOfBits bits).1.flatMap byteBits ++ (bytesOfBits bits).2 := by
  fun_induction bytesOfBits bits with
  | case1 a b c d e f g h bits bytes rest he ih =>
    rw [he] at ih
    rw [List.flatMap_cons, byteBits_ofBits, List.append_assoc, ← ih]
    rfl
  | case2 bits => rfl

theorem length_flatMap_of_forall {α β : Type} {f : α → List β} {n : Nat}
    (h : ∀ x, (f x).length = n) (l : List α) : (l.flatMap f).length = n * l.length := by
  induction l with
  | nil => rfl
  | cons x l ih => rw [List.flatMap_cons, List.length_append, h, ih, List.length_cons,
      Nat.mul_succ, Nat.add_comm]

/-- **Groups have bytes** iff the bytes are converted to them. -/
theorem fromWords_eq_some_iff {words : List Nat} (hwords : ∀ w ∈ words, w < 32)
    {bytes : List UInt8} : fromWords words = some bytes ↔ convertBits bytes = words := by
  constructor
  · intro h
    rcases he : bytesOfBits (words.flatMap wordBits) with ⟨bytes', rest⟩
    have hbits : words.flatMap wordBits = bytes'.flatMap byteBits ++ rest := by
      have hspec := bytesOfBits_spec (words.flatMap wordBits)
      rwa [he] at hspec
    simp only [fromWords, he] at h
    split_ifs at h with hrest
    obtain rfl := Option.some.inj h
    have hlength : (bytes'.flatMap byteBits).length + rest.length = 5 * words.length := by
      rw [← List.length_append, ← hbits]
      exact length_flatMap_of_forall (fun w : Nat => (rfl : (wordBits w).length = 5)) words
    have hzeros : rest = List.replicate rest.length false := List.eq_replicate_of_mem hrest.2
    rw [convertBits, ← groups_append_zeros hrest.1 _ (by omega), ← hzeros, ← hbits,
      groups_wordBits hwords]
  · rintro rfl
    obtain ⟨n, hn, h⟩ := wordBits_groups (bytes.flatMap byteBits)
    have hbytes : bytesOfBits ((convertBits bytes).flatMap wordBits) =
        (bytes, List.replicate n false) := by
      rw [convertBits, h]
      exact bytesOfBits_append bytes (by rw [List.length_replicate]; omega)
    rw [fromWords, hbytes]
    exact if_pos ⟨by rwa [List.length_replicate], fun _ hb => List.eq_of_mem_replicate hb⟩

theorem convertBits_lt (bytes : List UInt8) : ∀ w ∈ convertBits bytes, w < 32 := by
  have hfive : ∀ a b c d e : Bool, ofBits [a, b, c, d, e] < 32 := by decide
  unfold convertBits
  generalize bytes.flatMap byteBits = bits
  fun_induction groups bits with
  | case1 a b c d e bits ih => exact List.forall_mem_cons.2 ⟨hfive a b c d e, ih⟩
  | case2 => exact fun w hw => absurd hw List.not_mem_nil
  | case3 bits hnot hnil =>
    rw [List.forall_mem_singleton]
    rcases bits with _ | ⟨a, _ | ⟨b, _ | ⟨c, _ | ⟨d, _ | ⟨e, bits⟩⟩⟩⟩⟩
    · exact absurd rfl hnil
    · exact hfive a _ _ _ _
    · exact hfive a b _ _ _
    · exact hfive a b c _ _
    · exact hfive a b c d _
    · exact absurd rfl (hnot a b c d e bits)

/-! ## Checksum -/

/-- A generator that is added to two parts. -/
theorem ite_xor_xor (p q : Bool) (c d g : Nat) :
    (if (p ^^ q) = true then (c ^^^ d) ^^^ g else c ^^^ d) =
      (if p = true then c ^^^ g else c) ^^^ (if q = true then d ^^^ g else d) := by
  cases p with
  | false =>
    cases q with
    | false => rfl
    | true => exact Nat.xor_assoc c d g
  | true =>
    cases q with
    | false =>
      show (c ^^^ d) ^^^ g = (c ^^^ g) ^^^ d
      ac_rfl
    | true =>
      show c ^^^ d = (c ^^^ g) ^^^ (d ^^^ g)
      rw [Nat.xor_comm d g, ← Nat.xor_assoc, Nat.xor_assoc c g g, Nat.xor_self, Nat.xor_zero]

/-- The generators that a step adds are those of the bits of two parts. -/
theorem foldl_generators_xor (gs : List (Nat × Nat)) (a b c d : Nat) :
    gs.foldl (fun x (g, i) => if (a ^^^ b).testBit i then x ^^^ g else x) (c ^^^ d) =
      gs.foldl (fun x (g, i) => if a.testBit i then x ^^^ g else x) c ^^^
        gs.foldl (fun x (g, i) => if b.testBit i then x ^^^ g else x) d := by
  induction gs generalizing c d with
  | nil => rfl
  | cons p gs ih =>
    obtain ⟨g, i⟩ := p
    rw [List.foldl_cons, List.foldl_cons, List.foldl_cons, ← ih]
    refine congrArg (fun x => List.foldl _ x gs) ?_
    show (if (a ^^^ b).testBit i = true then (c ^^^ d) ^^^ g else c ^^^ d) = _
    rw [Nat.testBit_xor, ite_xor_xor]

/-- **A step is linear.** -/
theorem polymodStep_xor (a b v w : Nat) :
    polymodStep (a ^^^ b) (v ^^^ w) = polymodStep a v ^^^ polymodStep b w := by
  have hstart : (((a ^^^ b) &&& 0x1ffffff) <<< 5) ^^^ (v ^^^ w) =
      (((a &&& 0x1ffffff) <<< 5) ^^^ v) ^^^ (((b &&& 0x1ffffff) <<< 5) ^^^ w) := by
    rw [Nat.and_xor_distrib_right, Nat.shiftLeft_xor_distrib]
    ac_rfl
  unfold polymodStep
  rw [hstart, Nat.shiftRight_xor_distrib, foldl_generators_xor]

/-- A step of less than 25 bits shifts them. -/
theorem polymodStep_small {a : Nat} (ha : a < 2 ^ 25) {v : Nat} (hv : v < 32) :
    polymodStep a v = 32 * a + v := by
  have hshift : a >>> 25 = 0 := by
    rw [Nat.shiftRight_eq_div_pow]
    exact Nat.div_eq_of_lt ha
  have hmask : a &&& 0x1ffffff = a := by
    rw [show 0x1ffffff = 2 ^ 25 - 1 from rfl, Nat.and_two_pow_sub_one_eq_mod]
    exact Nat.mod_eq_of_lt ha
  have hxor : (a <<< 5) ^^^ v = 32 * a + v := by
    refine Nat.eq_of_testBit_eq fun i => ?_
    have hadd := Nat.testBit_two_pow_mul_add a (show v < 2 ^ 5 from hv) i
    rw [show 2 ^ 5 * a + v = 32 * a + v from rfl] at hadd
    rw [hadd, Nat.testBit_xor, Nat.testBit_shiftLeft]
    by_cases hi : i < 5
    · simp [hi, Nat.not_le.2 hi]
    · have hle : 5 ≤ i := Nat.not_lt.1 hi
      have hlow : v.testBit i = false :=
        Nat.testBit_lt_two_pow (Nat.lt_of_lt_of_le (show v < 2 ^ 5 from hv)
          (Nat.pow_le_pow_right Nat.two_pos hle))
      simp [hi, hlow, hle]
  simp only [polymodStep, hshift, hmask, Nat.zero_testBit, hxor]
  rfl

/-- The number with the digits to the base 32, the most significant one first. -/
def pack (digits : List Nat) : Nat := digits.foldl (fun n v => 32 * n + v) 0

/-- The digits change what a state of zeros would become. -/
theorem foldl_polymodStep_xor {digits : List Nat} (hdigits : ∀ v ∈ digits, v < 32) (s : Nat)
    {t : Nat} (ht : (t + 1) * 32 ^ digits.length ≤ 2 ^ 30) :
    digits.foldl polymodStep (s ^^^ t) =
      (List.replicate digits.length 0).foldl polymodStep s ^^^
        digits.foldl (fun n v => 32 * n + v) t := by
  induction digits generalizing s t with
  | nil => rfl
  | cons v digits ih =>
    obtain ⟨hv, hdigits⟩ := List.forall_mem_cons.1 hdigits
    rw [List.length_cons, Nat.pow_succ, Nat.mul_comm _ 32, ← Nat.mul_assoc] at ht
    have hsmall : t < 2 ^ 25 := by
      have hle : (t + 1) * 32 ≤ (t + 1) * 32 * 32 ^ digits.length :=
        Nat.le_mul_of_pos_right _ (Nat.pow_pos (by decide))
      omega
    have hnext : (32 * t + v + 1) * 32 ^ digits.length ≤ 2 ^ 30 :=
      Nat.le_trans (Nat.mul_le_mul_right _ (by omega)) ht
    have hstep : polymodStep (s ^^^ t) v = polymodStep s 0 ^^^ (32 * t + v) := by
      rw [← polymodStep_small hsmall hv, ← polymodStep_xor, Nat.zero_xor]
    rw [List.foldl_cons, hstep, ih hdigits _ hnext]
    rfl

/-- The checksum of a state. -/
def unpack (n : Nat) : List Nat := (List.range 6).map fun i => (n >>> (5 * (5 - i))) &&& 31

theorem unpack_eq (n : Nat) : unpack n =
    [n / 2 ^ 25 % 32, n / 2 ^ 20 % 32, n / 2 ^ 15 % 32, n / 2 ^ 10 % 32, n / 2 ^ 5 % 32,
      n % 32] := by
  have hmask : ∀ m : Nat, m &&& 31 = m % 32 := fun m => Nat.and_two_pow_sub_one_eq_mod m 5
  simp only [unpack, List.range_succ, List.range_zero, List.nil_append, List.cons_append,
    List.map_cons, List.map_nil, hmask, Nat.shiftRight_eq_div_pow]
  simp

theorem pack_unpack {n : Nat} (hn : n < 2 ^ 30) : pack (unpack n) = n := by
  rw [unpack_eq]
  simp only [pack, List.foldl_cons, List.foldl_nil]
  omega

theorem unpack_pack {digits : List Nat} (hdigits : ∀ v ∈ digits, v < 32)
    (hlength : digits.length = 6) : unpack (pack digits) = digits := by
  rcases digits with _ | ⟨a, _ | ⟨b, _ | ⟨c, _ | ⟨d, _ | ⟨e, _ | ⟨f, _ | ⟨g, digits⟩⟩⟩⟩⟩⟩⟩
  all_goals first | (simp only [List.length_cons, List.length_nil] at hlength; omega) | skip
  simp only [List.mem_cons, List.not_mem_nil, or_false, forall_eq_or_imp, forall_eq] at hdigits
  rw [unpack_eq]
  simp only [pack, List.foldl_cons, List.foldl_nil, List.cons.injEq, and_true]
  omega

theorem unpack_lt (n : Nat) : ∀ v ∈ unpack n, v < 32 := by
  rw [unpack_eq]
  simp only [List.mem_cons, List.not_mem_nil, or_false, forall_eq_or_imp, forall_eq]
  omega

theorem polymodStep_lt (a : Nat) {v : Nat} (hv : v < 32) : polymodStep a v < 2 ^ 30 := by
  have hstart : ((a &&& 0x1ffffff) <<< 5) ^^^ v < 2 ^ 30 := by
    refine Nat.xor_lt_two_pow ?_ (Nat.lt_trans hv (by decide))
    have hmask : a &&& 0x1ffffff ≤ 0x1ffffff := Nat.and_le_right
    rw [Nat.shiftLeft_eq]
    omega
  have hgen : ∀ gs : List (Nat × Nat), (∀ p ∈ gs, p.1 < 2 ^ 30) → ∀ c < 2 ^ 30,
      gs.foldl (fun x (g, i) => if (a >>> 25).testBit i then x ^^^ g else x) c < 2 ^ 30 := by
    intro gs
    induction gs with
    | nil => exact fun _ c hc => hc
    | cons p gs ih =>
      intro hall c hc
      obtain ⟨hp, hgs⟩ := List.forall_mem_cons.1 hall
      refine ih hgs _ ?_
      show (if (a >>> 25).testBit p.2 = true then c ^^^ p.1 else c) < 2 ^ 30
      split_ifs
      · exact Nat.xor_lt_two_pow hc hp
      · exact hc
  exact hgen _ (by decide) _ hstart

/-- The state whose digits are the checksum. -/
def checksumState (hrp : List Char) (data : List Nat) : Nat :=
  polymod (hrpExpand hrp ++ data ++ List.replicate 6 0)

theorem checksum_eq (hrp : List Char) (data : List Nat) :
    checksum hrp data = unpack (checksumState hrp data ^^^ 1) := rfl

theorem polymod_append {hrp : List Char} {data digits : List Nat} (hdigits : ∀ v ∈ digits, v < 32)
    (hlength : digits.length = 6) :
    polymod (hrpExpand hrp ++ data ++ digits) = checksumState hrp data ^^^ pack digits := by
  have h := foldl_polymodStep_xor hdigits (polymod (hrpExpand hrp ++ data)) (t := 0)
    (by rw [hlength]; decide)
  rw [Nat.xor_zero, hlength] at h
  calc polymod (hrpExpand hrp ++ data ++ digits)
      = digits.foldl polymodStep (polymod (hrpExpand hrp ++ data)) := List.foldl_append
    _ = (List.replicate 6 0).foldl polymodStep (polymod (hrpExpand hrp ++ data)) ^^^
          pack digits := h
    _ = checksumState hrp data ^^^ pack digits :=
        congrArg (· ^^^ pack digits) List.foldl_append.symm

theorem checksumState_lt (hrp : List Char) (data : List Nat) :
    checksumState hrp data < 2 ^ 30 := by
  rw [checksumState, polymod, show List.replicate 6 0 = List.replicate 5 0 ++ [0] from rfl,
    ← List.append_assoc, List.foldl_append]
  exact polymodStep_lt _ (by decide)

theorem checksum_lt (hrp : List Char) (data : List Nat) : ∀ v ∈ checksum hrp data, v < 32 :=
  unpack_lt _

theorem length_checksum (hrp : List Char) (data : List Nat) : (checksum hrp data).length = 6 := rfl

/-- **Six digits are accepted** iff they are the checksum. -/
theorem polymod_eq_one_iff {hrp : List Char} {data digits : List Nat}
    (hdigits : ∀ v ∈ digits, v < 32) (hlength : digits.length = 6) :
    polymod (hrpExpand hrp ++ data ++ digits) = 1 ↔ digits = checksum hrp data := by
  have hstate := checksumState_lt hrp data
  rw [polymod_append hdigits hlength, checksum_eq]
  constructor
  · intro h
    have hpack : pack digits = checksumState hrp data ^^^ 1 := by
      rw [← h, ← Nat.xor_assoc, Nat.xor_self, Nat.zero_xor]
    rw [← hpack, unpack_pack hdigits hlength]
  · rintro rfl
    rw [pack_unpack (Nat.xor_lt_two_pow hstate (by decide)), ← Nat.xor_assoc, Nat.xor_self,
      Nat.zero_xor]

/-! ## Texts -/

/-- The value of a character of the data. -/
def fromChar (c : Char) : Option Nat := charset.findIdx? (· == c)

def isHrpChar (c : Char) : Bool := 33 ≤ c.toNat && c.toNat ≤ 126

/-- The text of groups of five bits, with the checksum. -/
def text (hrp : List Char) (words : List Nat) : List Char :=
  hrp ++ '1' :: (words ++ checksum hrp words).map toChar

/-- The text in front of the last `1`, and behind it. -/
def splitLast : List Char → Option (List Char × List Char)
  | [] => none
  | c :: l => match splitLast l with
    | some (hrp, chars) => some (c :: hrp, chars)
    | none => if c = '1' then some ([], l) else none

def encodeWords (limit : Nat) (hrp : String) (words : List Nat) : Option String :=
  let lowered := hrp.toList.map Char.toLower
  if limit < lowered.length + 7 + words.length ∨ ¬ lowered.all isHrpChar ∨ ∃ w ∈ words, 32 ≤ w then
    none
  else some (String.ofList (text lowered words))

/-- The human-readable part and the groups of a text, which may not mix its letter cases. -/
def decode (limit : Nat) (s : String) : Option (String × List Nat) :=
  let lowered := s.toList.map Char.toLower
  if limit < s.toList.length ∨ (s.toList ≠ lowered ∧ s.toList ≠ s.toList.map Char.toUpper) then none
  else (splitLast lowered).bind fun (hrp, chars) =>
    if hrp = [] ∨ ¬ hrp.all isHrpChar ∨ chars.length < 6 then none
    else (chars.mapM fromChar).bind fun values =>
      if polymod (hrpExpand hrp ++ values) = 1 then
        some (String.ofList hrp, values.take (values.length - 6))
      else none

/-- A human-readable part in lower case. -/
structure ValidHrp (hrp : List Char) : Prop where
  ne_nil : hrp ≠ []
  chars : ∀ c ∈ hrp, isHrpChar c = true
  lower : hrp.map Char.toLower = hrp

theorem splitLast_eq_some_iff {l hrp chars : List Char} :
    splitLast l = some (hrp, chars) ↔ l = hrp ++ '1' :: chars ∧ '1' ∉ chars := by
  have hnone : ∀ l, splitLast l = none → '1' ∉ l := by
    intro l
    induction l with
    | nil => exact fun _ => List.not_mem_nil
    | cons c l ih =>
      intro h
      rw [splitLast] at h
      cases hl : splitLast l with
      | some p =>
        rw [hl] at h
        cases h
      | none =>
        rw [hl] at h
        split_ifs at h with hc
        rw [List.mem_cons, not_or]
        exact ⟨fun he => hc he.symm, ih hl⟩
  induction l generalizing hrp chars with
  | nil => simp [splitLast]
  | cons c l ih =>
    rw [splitLast]
    cases hl : splitLast l with
    | some p =>
      obtain ⟨hrp', chars'⟩ := p
      have hl' := ih.1 hl
      constructor
      · intro h
        obtain ⟨rfl, rfl⟩ := Prod.mk.inj (Option.some.inj h)
        exact ⟨by rw [hl'.1]; rfl, hl'.2⟩
      · rintro ⟨he, hone⟩
        rcases hrp with _ | ⟨d, hrp⟩
        · obtain ⟨-, rfl⟩ := List.cons.inj he
          refine absurd ?_ hone
          rw [hl'.1]
          exact List.mem_append_right _ List.mem_cons_self
        · obtain ⟨rfl, hrest⟩ := List.cons.inj he
          obtain ⟨rfl, rfl⟩ := Prod.mk.inj (Option.some.inj (hl.symm.trans (ih.2 ⟨hrest, hone⟩)))
          rfl
    | none =>
      have hone := hnone l hl
      constructor
      · intro h
        split_ifs at h with hc
        obtain ⟨rfl, rfl⟩ := Prod.mk.inj (Option.some.inj h)
        exact ⟨by rw [hc]; rfl, hone⟩
      · rintro ⟨he, -⟩
        rcases hrp with _ | ⟨d, hrp⟩
        · obtain ⟨rfl, rfl⟩ := List.cons.inj he
          exact if_pos rfl
        · obtain ⟨-, rfl⟩ := List.cons.inj he
          exact absurd (List.mem_append_right _ List.mem_cons_self) hone

theorem fromChar_eq_some_iff {c : Char} {v : Nat} :
    fromChar c = some v ↔ v < 32 ∧ toChar v = c := by
  constructor
  · intro h
    obtain ⟨hv, he, -⟩ := List.findIdx?_eq_some_iff_getElem.1 h
    refine ⟨hv, ?_⟩
    rw [toChar, List.getD_eq_getElem?_getD, List.getElem?_eq_getElem hv]
    exact eq_of_beq he
  · rintro ⟨hv, rfl⟩
    have hall : ∀ w < 32, fromChar (toChar w) = some w := by decide
    exact hall v hv

theorem mapM_fromChar_eq_some_iff {chars : List Char} {values : List Nat} :
    chars.mapM fromChar = some values ↔
      (∀ v ∈ values, v < 32) ∧ chars = values.map toChar := by
  induction chars generalizing values with
  | nil =>
    rw [List.mapM_nil]
    constructor
    · intro h
      obtain rfl := Option.some.inj h
      exact ⟨fun v hv => absurd hv List.not_mem_nil, rfl⟩
    · rintro ⟨-, h⟩
      rw [List.map_eq_nil_iff.1 h.symm]
      rfl
  | cons c chars ih =>
    rw [List.mapM_cons]
    constructor
    · intro h
      obtain ⟨v, hv, h⟩ := Option.bind_eq_some_iff.1 h
      obtain ⟨rest, hrest, h⟩ := Option.bind_eq_some_iff.1 h
      obtain rfl := Option.some.inj h
      obtain ⟨hlt, rfl⟩ := fromChar_eq_some_iff.1 hv
      obtain ⟨hall, rfl⟩ := ih.1 hrest
      exact ⟨List.forall_mem_cons.2 ⟨hlt, hall⟩, rfl⟩
    · rintro ⟨hall, h⟩
      rcases values with _ | ⟨v, values⟩
      · cases h
      · obtain ⟨rfl, rfl⟩ := List.cons.inj h
        obtain ⟨hlt, hall⟩ := List.forall_mem_cons.1 hall
        rw [fromChar_eq_some_iff.2 ⟨hlt, rfl⟩, ih.2 ⟨hall, rfl⟩]
        rfl

/-! ## Decoding -/

theorem charset_plain : ∀ v < 32, toChar v ≠ '1' ∧ (toChar v).toLower = toChar v := by decide

theorem data_plain {values : List Nat} (hvalues : ∀ v ∈ values, v < 32) :
    '1' ∉ values.map toChar ∧ (values.map toChar).map Char.toLower = values.map toChar := by
  constructor
  · intro h
    obtain ⟨v, hv, he⟩ := List.mem_map.1 h
    exact (charset_plain v (hvalues v hv)).1 he
  · rw [List.map_map]
    exact List.map_congr_left fun v hv => (charset_plain v (hvalues v hv)).2

theorem words_checksum_lt (hrp : List Char) {words : List Nat}
    (hwords : ∀ w ∈ words, w < 32) :
    ∀ v ∈ words ++ checksum hrp words, v < 32 :=
  List.forall_mem_append.2 ⟨hwords, checksum_lt hrp words⟩

theorem text_lower {hrp : List Char} (hhrp : ValidHrp hrp) {words : List Nat}
    (hwords : ∀ w ∈ words, w < 32) : (text hrp words).map Char.toLower = text hrp words := by
  rw [text, List.map_append, List.map_cons, hhrp.lower,
    (data_plain (words_checksum_lt hrp hwords)).2]
  rfl

/-- The text in one letter case, or the other. -/
theorem oneCase_iff {l lowered : List Char} (hlowered : lowered.map Char.toLower = lowered) :
    l.map Char.toLower = lowered ∧ (l = l.map Char.toLower ∨ l = l.map Char.toUpper) ↔
      l = lowered ∨ l = lowered.map Char.toUpper := by
  have hupper : (l.map Char.toLower).map Char.toUpper = l.map Char.toUpper := by
    rw [List.map_map]
    exact List.map_congr_left fun c _ => Char.toUpper_toLower_eq_toUpper c
  constructor
  · rintro ⟨rfl, h | h⟩
    · exact .inl h
    · exact .inr (h.trans hupper.symm)
  · rintro (rfl | rfl)
    · exact ⟨hlowered, .inl hlowered.symm⟩
    · refine ⟨?_, .inr ?_⟩
      · rw [List.map_map]
        refine Eq.trans (List.map_congr_left fun c _ => ?_) hlowered
        exact Char.toLower_toUpper_eq_toLower c
      · rw [List.map_map]
        exact List.map_congr_left fun c _ => (Char.toUpper_toUpper_eq_toUpper c).symm

/-- What the characters behind the last `1` are decoded to. -/
theorem values_iff (hrp : List Char) {values words : List Nat} (hvalues : ∀ v ∈ values, v < 32)
    (hlength : 6 ≤ values.length) :
    polymod (hrpExpand hrp ++ values) = 1 ∧ values.take (values.length - 6) = words ↔
      values = words ++ checksum hrp words := by
  constructor
  · rintro ⟨hmod, rfl⟩
    have hdrop : (values.drop (values.length - 6)).length = 6 := by
      rw [List.length_drop]
      omega
    rw [← List.take_append_drop (values.length - 6) values, ← List.append_assoc] at hmod
    have hlt : ∀ v ∈ values.drop (values.length - 6), v < 32 :=
      fun v hv => hvalues v (List.mem_of_mem_drop hv)
    rw [← (polymod_eq_one_iff hlt hdrop).1 hmod, List.take_append_drop]
  · rintro rfl
    have htake : (words ++ checksum hrp words).length - 6 = words.length := by
      rw [List.length_append, length_checksum, Nat.add_sub_cancel]
    rw [htake, List.take_left, ← List.append_assoc]
    exact ⟨(polymod_eq_one_iff (checksum_lt hrp words) (length_checksum hrp words)).2 rfl, rfl⟩

/-- **The texts that are decoded** are the encodings, in lower or in upper case. -/
theorem decode_eq_some_iff {limit : Nat} {s hrp : String} {words : List Nat} :
    decode limit s = some (hrp, words) ↔ ValidHrp hrp.toList ∧ (∀ w ∈ words, w < 32) ∧
      s.toList.length ≤ limit ∧
      (s.toList = text hrp.toList words ∨ s.toList = (text hrp.toList words).map Char.toUpper) := by
  constructor
  · intro h
    simp only [decode] at h
    split_ifs at h with hcase
    rw [not_or, Nat.not_lt, not_and_or, not_not, not_not] at hcase
    obtain ⟨hlimit, hcase⟩ := hcase
    obtain ⟨⟨hrp', chars⟩, hsplit, h⟩ := Option.bind_eq_some_iff.1 h
    obtain ⟨hlowered, -⟩ := splitLast_eq_some_iff.1 hsplit
    split_ifs at h with hbad
    rw [not_or, not_or, not_not, Nat.not_lt] at hbad
    obtain ⟨hne, hchars, hlength⟩ := hbad
    obtain ⟨values, hvalues, h⟩ := Option.bind_eq_some_iff.1 h
    obtain ⟨hlt, rfl⟩ := mapM_fromChar_eq_some_iff.1 hvalues
    split_ifs at h with hmod
    obtain ⟨rfl, rfl⟩ := Prod.mk.inj (Option.some.inj h)
    rw [List.length_map] at hlength
    have hsum := (values_iff hrp' hlt hlength).1 ⟨hmod, rfl⟩
    have htext : s.toList.map Char.toLower = text hrp' (values.take (values.length - 6)) := by
      rw [hlowered, text, ← hsum]
    have hfixed : (text hrp' (values.take (values.length - 6))).map Char.toLower =
        text hrp' (values.take (values.length - 6)) := by
      rw [← htext, List.map_map]
      exact List.map_congr_left fun c _ => Char.toLower_toLower_eq_toLower c
    rw [String.toList_ofList]
    refine ⟨⟨hne, List.all_eq_true.1 hchars, ?_⟩, fun w hw => hlt w (List.mem_of_mem_take hw),
      hlimit, (oneCase_iff hfixed).1 ⟨htext, hcase⟩⟩
    have hparts := hfixed
    rw [text, List.map_append] at hparts
    exact (List.append_inj hparts (List.length_map _)).1
  · rintro ⟨hhrp, hwords, hlimit, hcase⟩
    have hall := words_checksum_lt hrp.toList hwords
    obtain ⟨hlowered, hcase⟩ := (oneCase_iff (text_lower hhrp hwords)).2 hcase
    have hsplit : splitLast (s.toList.map Char.toLower) = some (hrp.toList,
        (words ++ checksum hrp.toList words).map toChar) :=
      splitLast_eq_some_iff.2 ⟨hlowered, (data_plain hall).1⟩
    have hlength : 6 ≤ (words ++ checksum hrp.toList words).length := by
      rw [List.length_append, length_checksum]
      omega
    obtain ⟨hmod, htake⟩ := (values_iff hrp.toList hall hlength).2 rfl
    simp only [decode]
    rw [if_neg (by rw [not_or, Nat.not_lt, not_and_or, not_not, not_not]; exact ⟨hlimit, hcase⟩),
      hsplit]
    refine (if_neg ?_).trans ?_
    · rw [not_or, not_or, not_not, Nat.not_lt, List.length_map]
      exact ⟨hhrp.ne_nil, List.all_eq_true.2 hhrp.chars, hlength⟩
    · rw [mapM_fromChar_eq_some_iff.2 ⟨hall, rfl⟩]
      refine (if_pos hmod).trans ?_
      rw [htake, String.ofList_toList]

theorem length_text (hrp : List Char) (words : List Nat) :
    (text hrp words).length = hrp.length + 7 + words.length := by
  rw [text, List.length_append, List.length_cons, List.length_map, List.length_append,
    length_checksum]
  omega

theorem toList_encode (hrp : String) (bytes : List UInt8) :
    (encode hrp bytes).toList = text hrp.toList (convertBits bytes) := by
  rw [encode, String.toList_append, String.toList_append, String.toList_ofList,
    String.toList_ofList, List.append_assoc]
  rfl

/-- **Round trip.** -/
theorem decode_encode {limit : Nat} {hrp : String} (hhrp : ValidHrp hrp.toList)
    {bytes : List UInt8} (hlimit : (encode hrp bytes).toList.length ≤ limit) :
    decode limit (encode hrp bytes) = some (hrp, convertBits bytes) :=
  decode_eq_some_iff.2 ⟨hhrp, convertBits_lt bytes, hlimit, .inl (toList_encode hrp bytes)⟩

/-- Groups have the text of the bytes that are converted to them. -/
theorem encodeWords_convertBits {limit : Nat} {hrp : String} (hhrp : ValidHrp hrp.toList)
    {bytes : List UInt8} (hlimit : (encode hrp bytes).toList.length ≤ limit) :
    encodeWords limit hrp (convertBits bytes) = some (encode hrp bytes) := by
  have hlt := convertBits_lt bytes
  rw [toList_encode, length_text] at hlimit
  simp only [encodeWords, hhrp.lower]
  rw [if_neg, ← toList_encode, String.ofList_toList]
  rw [not_or, not_or, not_not, Nat.not_lt]
  refine ⟨hlimit, List.all_eq_true.2 hhrp.chars, ?_⟩
  rintro ⟨w, hw, hle⟩
  exact absurd (hlt w hw) (Nat.not_lt.2 hle)

end Bech32
