/-
  One account, one key: the forms of an address and the key it is stored under.

  * `StandardBech32`: the bech32 form of an address is its prefix, a `1`, and data without a `1`;
  * `HexForm`: the `0x` forms of an address, in any letter case;
  * `oneKey_iff`: all forms of an address have one key, unless its prefix contains a `1` or is
    white space, or its bech32 form reads as the `0x` form of another address.
-/
import RollappExplorer.Bech32
import RollappExplorer.BlockInformation

namespace RollappExplorer

open Go

/-! ## Forms of an address -/

/-- The assumption on the Cosmos SDK: under every prefix, 20 bytes have a bech32 form of 32
    characters of data and 6 of a checksum. -/
def StandardBech32 (sdk : Sdk) : Prop :=
  ∀ hrp addr, hrp ≠ "" → addr.length = 20 → ∃ data : List Char, data.length = 38 ∧
    (∀ c ∈ data, c ∈ Bech32.charset) ∧
    sdk.bech32ifyAddressBytes hrp addr = .ok (hrp ++ "1" ++ String.ofList data)

/-- The bytes in lower case hexadecimal digits. -/
def hexDigits (addr : List UInt8) : List Char :=
  addr.flatMap fun b => [Nat.digitChar (b.toNat / 16), Nat.digitChar (b.toNat % 16)]

/-- The text is the `0x` form of the address, each letter in either case, within white space. -/
def HexForm (addr : List UInt8) (s : String) : Prop :=
  ∃ pre l post, s.toList = pre ++ l ++ post ∧ (∀ c ∈ pre, isSpace c = true) ∧
    (∀ c ∈ post, isSpace c = true) ∧
    List.Forall₂ (fun c d => c = d ∨ c = d.toUpper) l ('0' :: 'x' :: hexDigits addr)

/-- All forms of the address, of which `b` is the bech32 form, have one key, and so has the key. -/
def OneKey (sdk : Sdk) (bech32Cfg : Bech32PrefixOfChainInfo) (addr : List UInt8) (b : String) :
    Prop :=
  ∃ key, (∀ s, HexForm addr s →
      unsafeAnyAddressToBech32Address sdk s bech32Cfg = .ok (some key)) ∧
    unsafeAnyAddressToBech32Address sdk b bech32Cfg = .ok (some key) ∧
    unsafeAnyAddressToBech32Address sdk key bech32Cfg = .ok (some key)

/-! ## Hexadecimal forms -/

theorem hexValue_digitChar : ∀ n < 16, hexValue (Nat.digitChar n) = n := by decide

/-- The characters of a `0x` form in lower case. -/
def hexChars : List Char := "0123456789abcdefx".toList

theorem digitChar_mem : ∀ n < 16, Nat.digitChar n ∈ hexChars ∧ isHex (Nat.digitChar n) = true := by
  decide

/-- A check of every character of a list, which does not run over all characters. -/
theorem forall_chars {P : Char → Prop} [DecidablePred P] {l : List Char}
    (h : l.all (fun c => P c) = true) : ∀ c ∈ l, P c :=
  fun c hc => of_decide_eq_true (List.all_eq_true.1 h c hc)

theorem toLowerRune_hexChars : ∀ c ∈ hexChars,
    toLowerRune c = c ∧ toLowerRune c.toUpper = c ∧ isSpace c = false :=
  forall_chars (by decide)

theorem hexToBytes_hexDigits (addr : List UInt8) : hexToBytes (hexDigits addr) = addr := by
  induction addr with
  | nil => rfl
  | cons b addr ih =>
    have hb := b.toNat_lt
    show UInt8.ofNat _ :: hexToBytes (hexDigits addr) = _
    rw [ih, hexValue_digitChar _ (by omega), hexValue_digitChar _ (by omega),
      Nat.div_add_mod b.toNat 16, UInt8.ofNat_toNat]

theorem length_hexDigits (addr : List UInt8) : (hexDigits addr).length = 2 * addr.length := by
  simp [hexDigits, List.length_flatMap, Nat.mul_comm]

theorem mem_hexDigits {addr : List UInt8} {c : Char} (h : c ∈ hexDigits addr) :
    c ∈ hexChars ∧ isHex c = true := by
  obtain ⟨b, -, hc⟩ := List.mem_flatMap.1 h
  have hb := b.toNat_lt
  rcases List.mem_cons.1 hc with rfl | hc
  · exact digitChar_mem _ (by omega)
  · rw [List.mem_singleton.1 hc]
    exact digitChar_mem _ (by omega)

theorem map_toLowerRune_of_forall₂ {l l' : List Char} (hl' : ∀ c ∈ l', c ∈ hexChars)
    (h : List.Forall₂ (fun c d => c = d ∨ c = d.toUpper) l l') : l.map toLowerRune = l' := by
  induction h with
  | nil => rfl
  | cons hc _ ih =>
    obtain ⟨hd, hl'⟩ := List.forall_mem_cons.1 hl'
    obtain ⟨hlower, hupper, -⟩ := toLowerRune_hexChars _ hd
    rw [List.map_cons, ih hl']
    rcases hc with rfl | rfl
    · rw [hlower]
    · rw [hupper]

/-- The normal form of a `0x` form. -/
theorem HexForm.normalize {addr : List UInt8} {s : String} (h : HexForm addr s) :
    (normalizeAddress s).toList = '0' :: 'x' :: hexDigits addr := by
  obtain ⟨pre, l, post, hs, hpre, hpost, hl⟩ := h
  have hchars : ∀ c ∈ '0' :: 'x' :: hexDigits addr, c ∈ hexChars := by
    intro c hc
    rcases List.mem_cons.1 hc with rfl | hc
    · decide
    · rcases List.mem_cons.1 hc with rfl | hc
      · decide
      · exact (mem_hexDigits hc).1
  have hlower := map_toLowerRune_of_forall₂ hchars hl
  have hspace : ∀ c ∈ l, isSpace c = false := by
    intro c hc
    rw [← isSpace_toLowerRune]
    exact (toLowerRune_hexChars _
      (hchars _ (hlower ▸ List.mem_map_of_mem (f := toLowerRune) hc))).2.2
  rw [normalizeAddress, toList_toLower, toList_trimSpace, hs,
    trim_append hpre hpost (fun c hc => hspace c (List.mem_of_mem_head? hc))
      fun c hc => hspace c (List.mem_of_mem_getLast? hc)]
  exact hlower

theorem HexForm.isEvmAddress {addr : List UInt8} {s : String} (h : HexForm addr s)
    (haddr : addr.length = 20) : isEvmAddress s = true := by
  unfold RollappExplorer.isEvmAddress
  rw [h.normalize]
  simp only [hexPrefixed, allOfLength, length_hexDigits, haddr, Bool.and_eq_true, beq_iff_eq,
    List.all_eq_true, true_and]
  exact fun c hc => (mem_hexDigits hc).2

theorem HexForm.hexToAddress {addr : List UInt8} {s : String} (h : HexForm addr s) :
    hexToAddress (normalizeAddress s) = addr := by
  rw [RollappExplorer.hexToAddress, h.normalize]
  exact hexToBytes_hexDigits addr

/-! ## Bech32 forms -/

/-- The bech32 form under a prefix with certain data, in normal form. -/
def normalBech32 (hrp : String) (data : List Char) : List Char :=
  (hrp.toList.dropWhile isSpace).map toLowerRune ++ '1' :: data

theorem charset_spec : ∀ c ∈ Bech32.charset,
    toLowerRune c = c ∧ isSpace c = false ∧ c ≠ '1' :=
  forall_chars (by decide)

theorem normalize_bech32 {hrp : String} {data : List Char}
    (hdata : ∀ c ∈ data, c ∈ Bech32.charset) :
    (normalizeAddress (hrp ++ "1" ++ String.ofList data)).toList = normalBech32 hrp data := by
  have hlist : (hrp ++ "1" ++ String.ofList data).toList =
      hrp.toList.takeWhile isSpace ++ (hrp.toList.dropWhile isSpace ++ '1' :: data) ++ [] := by
    have hone : "1".toList = ['1'] := rfl
    rw [String.toList_append, String.toList_append, hone, String.toList_ofList, List.append_nil,
      ← List.append_assoc, List.takeWhile_append_dropWhile, List.append_assoc]
    rfl
  have hhead : ∀ c ∈ (hrp.toList.dropWhile isSpace ++ '1' :: data).head?, isSpace c = false := by
    intro c hc
    have hnot := List.head?_dropWhile_not isSpace hrp.toList
    cases hdrop : hrp.toList.dropWhile isSpace with
    | nil =>
      rw [hdrop] at hc
      obtain rfl : '1' = c := Option.some.inj hc
      decide
    | cons d l =>
      rw [hdrop] at hc hnot
      obtain rfl : d = c := Option.some.inj hc
      simpa using hnot
  have hlast : ∀ c ∈ (hrp.toList.dropWhile isSpace ++ '1' :: data).getLast?,
      isSpace c = false := by
    intro c hc
    have hm : c ∈ '1' :: data := by
      rw [List.getLast?_append_of_ne_nil _ (List.cons_ne_nil _ _)] at hc
      exact List.mem_of_mem_getLast? hc
    rcases List.mem_cons.1 hm with rfl | hm
    · decide
    · exact (charset_spec c (hdata c hm)).2.1
  rw [normalizeAddress, toList_toLower, toList_trimSpace, hlist,
    trim_append (fun c hc => List.mem_takeWhile_imp hc) (by simp) hhead hlast, List.map_append,
    List.map_cons, List.map_congr_left fun c hc => (charset_spec c (hdata c hc)).1,
    List.map_id']
  rfl

/-- A prefix that is not white space, and has no `1`. -/
def Splittable (hrp : String) : Prop := trimSpace hrp ≠ "" ∧ '1' ∉ hrp.toList

theorem one_mem_lower {l : List Char} : '1' ∈ l.map toLowerRune ↔ '1' ∈ l := by
  simp only [List.mem_map, toLowerRune_eq_digit (d := '1') (by decide), exists_eq_right]

theorem splittable_iff {hrp : String} :
    Splittable hrp ↔ hrp.toList.dropWhile isSpace ≠ [] ∧
      '1' ∉ (hrp.toList.dropWhile isSpace).map toLowerRune := by
  have hone : '1' ∈ hrp.toList.dropWhile isSpace ↔ '1' ∈ hrp.toList := by
    constructor
    · exact fun h => (List.dropWhile_sublist _).mem h
    · intro h
      rw [← List.takeWhile_append_dropWhile (p := isSpace) (l := hrp.toList)] at h
      rcases List.mem_append.1 h with h | h
      · exact absurd (List.mem_takeWhile_imp h) (by decide)
      · exact h
  have hempty : trimSpace hrp = "" ↔ hrp.toList.dropWhile isSpace = [] := by
    rw [← String.toList_inj, toList_trimSpace]
    show trim _ = [] ↔ _
    constructor
    · intro h
      by_contra hne
      obtain ⟨c, hc, hspace⟩ : ∃ c ∈ hrp.toList, isSpace c = false := by
        simpa [List.dropWhile_eq_nil_iff] using hne
      have hm := mem_trim hc hspace
      rw [h] at hm
      cases hm
    · intro h
      rw [trim, h, List.rdropWhile_nil]
  rw [Splittable, one_mem_lower, hone, ne_eq, hempty]

theorem unsafeExtractBech32Hrp_of_length_ne {s : String} (h : (split s '1').length ≠ 2) :
    (unsafeExtractBech32Hrp s).2 = false := by
  unfold unsafeExtractBech32Hrp
  split
  · rename_i hrp data he
    exact absurd (congrArg List.length he) h
  · rfl

/-- What the split of a bech32 form in normal form gives. -/
theorem unsafeExtractBech32Hrp_normal {b hrp : String} {data : List Char}
    (hb : b.toList = normalBech32 hrp data) (hlen : data.length = 38)
    (hdata : ∀ c ∈ data, c ∈ Bech32.charset) :
    (unsafeExtractBech32Hrp b).2 = true ↔ Splittable hrp := by
  have hnot : '1' ∉ data := fun h => (charset_spec _ (hdata _ h)).2.2 rfl
  have hsplit : split b '1' =
      (((hrp.toList.dropWhile isSpace).map toLowerRune).splitOn '1' ++ [data]).map
        String.ofList := by
    rw [split, hb, normalBech32, List.splitOn_append_cons_self, List.splitOn_eq_singleton hnot]
  rw [splittable_iff]
  have hnil : hrp.toList.dropWhile isSpace ≠ [] ↔
      (hrp.toList.dropWhile isSpace).map toLowerRune ≠ [] := by simp
  rw [hnil]
  generalize (hrp.toList.dropWhile isSpace).map toLowerRune = l at hsplit
  by_cases hone : '1' ∈ l
  · have hparts : (split b '1').length ≠ 2 := by
      obtain ⟨l₁, l₂, rfl⟩ := List.append_of_mem hone
      have h₁ := List.length_pos_iff.2 (List.splitOn_ne_nil '1' l₁)
      have h₂ := List.length_pos_iff.2 (List.splitOn_ne_nil '1' l₂)
      rw [hsplit, List.splitOn_append_cons_self, List.length_map, List.length_append,
        List.length_append, List.length_singleton]
      omega
    simp [unsafeExtractBech32Hrp_of_length_ne hparts, hone]
  · have hlen' : 7 ≤ len (String.ofList data) :=
      (by omega : 7 ≤ data.length).trans (length_le_len data)
    have hne : String.ofList l ≠ "" ↔ l ≠ [] := by
      rw [ne_eq, ← String.toList_inj, String.toList_ofList]
      rfl
    rw [unsafeExtractBech32Hrp, hsplit, List.splitOn_eq_singleton hone]
    simp [hlen', hne, hone]

/-! ## Keys -/

section
variable {sdk : Sdk} {bech32Cfg : Bech32PrefixOfChainInfo} {addr : List UInt8} {b : String}

theorem isEvmAddress_normalize (s : String) :
    isEvmAddress (normalizeAddress s) = isEvmAddress s := by
  rw [isEvmAddress, isEvmAddress, normalizeAddress_idem]

/-- The key depends on the normal form only. -/
theorem unsafeAnyAddressToBech32Address_normalize (s : String) :
    unsafeAnyAddressToBech32Address sdk (normalizeAddress s) bech32Cfg =
      unsafeAnyAddressToBech32Address sdk s bech32Cfg := by
  rw [unsafeAnyAddressToBech32Address, normalizeAddress_idem, unsafeAnyAddressToBech32Address]

theorem unsafeAnyAddressToBech32Address_evm {s : String} (hs : isEvmAddress s = true)
    (hb : sdk.bech32ifyAddressBytes bech32Cfg.bech32PrefixAccAddr
      (hexToAddress (normalizeAddress s)) = .ok b) :
    unsafeAnyAddressToBech32Address sdk s bech32Cfg = .ok (some (normalizeAddress b)) := by
  simp only [unsafeAnyAddressToBech32Address, isEvmAddress_normalize, hs, if_true, hb]

theorem unsafeAnyAddressToBech32Address_bech32 {s : String} (hs : isEvmAddress s = false) :
    unsafeAnyAddressToBech32Address sdk s bech32Cfg = .ok (some (normalizeAddress s)) ↔
      (unsafeExtractBech32Hrp (normalizeAddress s)).2 = true := by
  simp only [unsafeAnyAddressToBech32Address, isEvmAddress_normalize, hs, Bool.false_eq_true,
    if_false]
  split_ifs with hhrp
  · simp [hhrp]
  · simp [hhrp]

/-- The key of a bech32 form is its normal form exactly under this condition. -/
theorem key_of_bech32_iff (hsdk : StandardBech32 sdk)
    (hcfg : bech32Cfg.bech32PrefixAccAddr ≠ "") (haddr : addr.length = 20)
    (hb : sdk.bech32ifyAddressBytes bech32Cfg.bech32PrefixAccAddr addr = .ok b) :
    unsafeAnyAddressToBech32Address sdk b bech32Cfg = .ok (some (normalizeAddress b)) ↔
      (isEvmAddress b = false ∧ Splittable bech32Cfg.bech32PrefixAccAddr) ∨
      (isEvmAddress b = true ∧ sdk.bech32ifyAddressBytes bech32Cfg.bech32PrefixAccAddr
        (hexToAddress (normalizeAddress b)) = .ok b) := by
  obtain ⟨data, hlen, hdata, he⟩ := hsdk _ addr hcfg haddr
  obtain rfl := Except.ok.inj (hb.symm.trans he)
  cases hevm : isEvmAddress (bech32Cfg.bech32PrefixAccAddr ++ "1" ++ String.ofList data) with
  | false =>
    rw [unsafeAnyAddressToBech32Address_bech32 hevm,
      unsafeExtractBech32Hrp_normal (normalize_bech32 hdata) hlen hdata]
    simp
  | true =>
    obtain ⟨data', -, hdata', he'⟩ := hsdk _ _ hcfg (length_hexToAddress hevm)
    rw [unsafeAnyAddressToBech32Address_evm hevm he', he']
    simp only [Except.ok.injEq, Option.some.injEq, Bool.true_eq_false, false_and, true_and,
      false_or]
    constructor
    · intro h
      have hl := congrArg String.toList h
      rw [normalize_bech32 hdata', normalize_bech32 hdata] at hl
      rw [(List.cons.inj (List.append_cancel_left hl)).2]
    · intro h
      rw [h]

/-- **One account has one key** exactly if its bech32 form, not being a `0x` form, is under a
    prefix that is not white space and has no `1`, or reads as a `0x` form of the account. -/
theorem oneKey_iff (hsdk : StandardBech32 sdk) (hcfg : bech32Cfg.validateBasic = .ok ())
    (haddr : addr.length = 20)
    (hb : sdk.bech32ifyAddressBytes bech32Cfg.bech32PrefixAccAddr addr = .ok b) :
    OneKey sdk bech32Cfg addr b ↔
      (isEvmAddress b = false ∧ Splittable bech32Cfg.bech32PrefixAccAddr) ∨
      (isEvmAddress b = true ∧ sdk.bech32ifyAddressBytes bech32Cfg.bech32PrefixAccAddr
        (hexToAddress (normalizeAddress b)) = .ok b) := by
  rw [← key_of_bech32_iff hsdk (Bech32PrefixOfChainInfo.validateBasic_prefix hcfg) haddr hb]
  have hhex : ∀ s, HexForm addr s →
      unsafeAnyAddressToBech32Address sdk s bech32Cfg = .ok (some (normalizeAddress b)) := by
    intro s hs
    exact unsafeAnyAddressToBech32Address_evm (hs.isEvmAddress haddr) (by rw [hs.hexToAddress, hb])
  constructor
  · rintro ⟨key, hkey, hform, -⟩
    have hself : HexForm addr (String.ofList ('0' :: 'x' :: hexDigits addr)) :=
      ⟨[], _, [], by rw [String.toList_ofList, List.append_nil, List.nil_append],
        by simp, by simp, List.forall₂_same.2 fun _ _ => .inl rfl⟩
    have hk := (hkey _ hself).symm.trans (hhex _ hself)
    rw [hform, Option.some.inj (Except.ok.inj hk)]
  · intro h
    refine ⟨normalizeAddress b, hhex, h, ?_⟩
    rw [unsafeAnyAddressToBech32Address_normalize, h]

end

/-! ## Prefixes with and without a `1` -/

theorem standardBech32_bech32Sdk : StandardBech32 bech32Sdk := by
  intro hrp addr _ haddr
  refine ⟨Bech32.data hrp.toList addr, ?_, fun c hc => Bech32.mem_charset_of_mem_data hc, rfl⟩
  rw [Bech32.length_data, haddr]

/-- The address of 20 zero bytes. -/
def zeroAddress : List UInt8 := List.replicate 20 0

set_option maxRecDepth 10000 in
theorem oneKey_rol : OneKey bech32Sdk ⟨"rol", "rolvalcons", "rolvaloper"⟩ zeroAddress
    "rol1qqqqqqqqqqqqqqqqqqqqqqqqqqqqqqqq4h2wfv" := by
  have hb : Bech32.encode "rol" zeroAddress = "rol1qqqqqqqqqqqqqqqqqqqqqqqqqqqqqqqq4h2wfv" := by
    decide
  exact (oneKey_iff standardBech32_bech32Sdk rfl rfl (congrArg Except.ok hb)).2
    (.inl ⟨by decide, by decide, by decide⟩)

set_option maxRecDepth 10000 in
/-- The bech32 form under an accepted prefix with a `1` is taken for absolutely invalid. -/
theorem not_oneKey_rol1 :
    (Bech32PrefixOfChainInfo.mk "rol1" "rolvalcons" "rolvaloper").validateBasic = .ok () ∧
    ¬ OneKey bech32Sdk ⟨"rol1", "rolvalcons", "rolvaloper"⟩ zeroAddress
      (Bech32.encode "rol1" zeroAddress) := by
  refine ⟨rfl, ?_⟩
  rintro ⟨key, -, hkey, -⟩
  have hnone : unsafeAnyAddressToBech32Address bech32Sdk (Bech32.encode "rol1" zeroAddress)
      ⟨"rol1", "rolvalcons", "rolvaloper"⟩ = .ok none := rfl
  cases hnone.symm.trans hkey

end RollappExplorer
