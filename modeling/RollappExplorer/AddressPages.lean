/-
  The pages of addresses, and the search for accounts (`utils/address.ts`,
  `services/search.service.ts`, `app/[rollappPath]/address/[address]/page.tsx`).

  * `getAccountSearchResult`: the rollapps that are offered for an address;
  * `addressPage`: what the page of an address shows;
  * `accountSearch_opens`: a rollapp that is offered shows the address that was searched for;
  * `addressPage_key`: all forms of an account have one page, which reads the rows that the
    indexer writes for all forms of the account.
-/
import RollappExplorer.Addresses
import RollappExplorer.Bech32.Decode
import RollappExplorer.TransactionSearch

namespace RollappExplorer

open Js

/-! ## Libraries -/

/-- What is used of the packages `bech32` and `@ethersproject/address`; `none` if a call throws. -/
structure AddressLibs where
  decode : String → Option (String × List ℕ)
  encode : String → List ℕ → Option String
  toWords : List UInt8 → List ℕ
  fromWords : List ℕ → Option (List UInt8)
  getAddress : String → Option String

/-- The text has the hexadecimal digits of the bytes, in any letter case, with or without `0x`. -/
def HexText (addr : List UInt8) (s : String) : Prop :=
  ∃ l, l.map Char.toLower = hexDigits addr ∧ (s.toList = l ∨ s.toList = '0' :: 'x' :: l)

/-- The `0x` form of the bytes, in any letter case. -/
def Checksummed (addr : List UInt8) (s : String) : Prop :=
  ∃ l, l.map Char.toLower = hexDigits addr ∧ s.toList = '0' :: 'x' :: l

/-- The assumption on the packages: bech32 is the standard one, in texts of at most 90 characters,
    and an address in lower case has a checksummed form. -/
structure AddressLibs.Standard (L : AddressLibs) : Prop where
  decode : ∀ s, IsAscii s → L.decode s = Bech32.decode 90 s
  encode : ∀ hrp words, IsAscii hrp → L.encode hrp words = Bech32.encodeWords 90 hrp words
  toWords : ∀ bytes, L.toWords bytes = Bech32.convertBits bytes
  fromWords : ∀ words, (∀ w ∈ words, w < 32) → L.fromWords words = Bech32.fromWords words
  getAddress : ∀ addr s, addr.length = 20 → HexText addr s → s.toList.map Char.toLower = s.toList →
    ∃ t, L.getAddress s = some t
  getAddress_checksummed : ∀ addr s t, addr.length = 20 → HexText addr s →
    L.getAddress s = some t → Checksummed addr t
  getAddress_length : ∀ addr s, s.toList = hexDigits addr → addr.length ≠ 20 → L.getAddress s = none

/-! ## Addresses -/

/-- `EVM_ADDRESS_REGEX`: `^(0x)?[\da-fA-F]{40}$` -/
def Web.isEvmAddress (value : String) : Bool :=
  hexPrefixed isHex 40 value.toList || allOfLength isHex 40 value.toList

def isLowerLetter (c : Char) : Bool := 'a' ≤ c && c ≤ 'z'

structure RollappAddress where
  address : List UInt8
  addressPrefix : String
  deriving DecidableEq

/-- `hex.replace('0x', '')` -/
def replaceHexMark : List Char → List Char
  | '0' :: 'x' :: l => l
  | c :: l => c :: replaceHexMark l
  | [] => []

/-- `Buffer.from(hex, 'hex')`: up to the first pair that is not of hexadecimal digits. -/
def bufferFromHex : List Char → List UInt8
  | a :: b :: l => match Text.hexDigit a, Text.hexDigit b with
    | some x, some y => UInt8.ofNat (16 * x + y) :: bufferFromHex l
    | _, _ => []
  | _ => []

/-- A missing or empty prefix is none. -/
def RollappAddress.fromBech32 (L : AddressLibs) (bech32Address : String)
    (addressPrefix : Option String) (throwErr : Bool) : Option RollappAddress := do
  let (decodedPrefix, words) ← L.decode bech32Address
  match addressPrefix.filter (· ≠ "") with
  | none => return ⟨← L.fromWords words, decodedPrefix⟩
  | some p =>
    if throwErr && decodedPrefix ≠ p then none
    else return ⟨← L.fromWords words, p⟩

def RollappAddress.fromHex (hex addressPrefix : String) : RollappAddress :=
  ⟨bufferFromHex (replaceHexMark hex.toList), addressPrefix⟩

def RollappAddress.toBech32 (L : AddressLibs) (a : RollappAddress) : Option String :=
  L.encode a.addressPrefix (L.toWords a.address)

def RollappAddress.toHex (L : AddressLibs) (a : RollappAddress) (checksum : Bool) :
    Option String :=
  let hex := String.ofList (hexDigits a.address)
  if hex.toList.length = 0 then none
  else if checksum then L.getAddress hex
  else some ("0x" ++ hex)

/-! ## Search -/

/-- `RollappInfo`, with the columns that addresses depend on. -/
structure AddressRollapp extends RollappSearchInfo where
  chainType : String
  bech32 : Bech32PrefixOfChainInfo

/-- `ChainType.EVM` -/
def AddressRollapp.isEvm (i : AddressRollapp) : Bool := i.chainType = "evm"

/-- What the page shows, with the forms of the address. -/
inductive AddressView where
  | redirect
  | validator (bech32Address : String) (evmAddress : Option String)
  | account (bech32Address : String) (evmAddress : Option String)
  deriving DecidableEq

/-- The address of the account and, if it is one of a validator, that address. -/
def parseAddress (L : AddressLibs) (rollappInfo : AddressRollapp) (address : String) :
    Option (Option (RollappAddress × Option RollappAddress)) :=
  let accountPrefix := rollappInfo.bech32.bech32PrefixAccAddr
  if rollappInfo.isEvm && Web.isEvmAddress address then
    some (some (RollappAddress.fromHex address accountPrefix, none))
  else do
    let parsedAddress ← RollappAddress.fromBech32 L address none true
    if parsedAddress.addressPrefix = accountPrefix then return some (parsedAddress, none)
    else if parsedAddress.addressPrefix = rollappInfo.bech32.bech32PrefixOperator ∨
        parsedAddress.addressPrefix = rollappInfo.bech32.bech32PrefixCons then
      let rollappAddress ← RollappAddress.fromBech32 L address (some accountPrefix) false
      return some (rollappAddress, some parsedAddress)
    else return none

/-- `evmAddress` -/
def shownEvmAddress (L : AddressLibs) (rollappInfo : AddressRollapp)
    (rollappAddress : RollappAddress) : Option (Option String) :=
  if rollappInfo.isEvm then (rollappAddress.toHex L true).map some else some none

/-- The page of an address; `none` if it ends in an error. -/
def addressPage (L : AddressLibs) (u : CaseMapping) (rollappInfo : AddressRollapp)
    (address : String) : Option AddressView := do
  match ← parseAddress L rollappInfo (u.toLowerCase address) with
  | none => return .redirect
  | some (rollappAddress, valAddress) =>
    let bech32Address ← (valAddress.getD rollappAddress).toBech32 L
    let evmAddress ← shownEvmAddress L rollappInfo rollappAddress
    match valAddress with
    | some _ => return .validator bech32Address evmAddress
    | none => return .account bech32Address evmAddress

/-! ## Hexadecimal texts -/

section

variable {L : AddressLibs} {u : CaseMapping} {addr : List UInt8} {s : String}

theorem hexDigit_of_isHex {c : Char} (h : isHex c = true) :
    ∃ v < 16, Text.hexDigit c = some v ∧ Nat.digitChar v = c.toLower :=
  forall_isHex (P := fun c => ∃ v < 16, Text.hexDigit c = some v ∧ Nat.digitChar v = c.toLower)
    (by decide) (by decide) (by decide) h

theorem hexDigits_bufferFromHex {l : List Char} (hall : ∀ c ∈ l, isHex c = true)
    (heven : l.length % 2 = 0) : hexDigits (bufferFromHex l) = l.map Char.toLower := by
  fun_induction bufferFromHex l with
  | case1 a b l x y hx hy ih =>
    simp only [List.forall_mem_cons] at hall
    obtain ⟨ha, hb, hl⟩ := hall
    obtain ⟨v, hv, hxv, hva⟩ := hexDigit_of_isHex ha
    obtain ⟨w, hw, hyw, hwb⟩ := hexDigit_of_isHex hb
    obtain rfl := Option.some.inj (hy.symm.trans hxv)
    obtain rfl := Option.some.inj (hx.symm.trans hyw)
    have htail : l.length % 2 = 0 := by
      simp only [List.length_cons] at heven
      omega
    have hbyte : (UInt8.ofNat (16 * x + y)).toNat = 16 * x + y := by
      rw [UInt8.toNat_ofNat']
      omega
    show Nat.digitChar ((UInt8.ofNat (16 * x + y)).toNat / 16) ::
      Nat.digitChar ((UInt8.ofNat (16 * x + y)).toNat % 16) :: hexDigits (bufferFromHex l) = _
    rw [hbyte, ih hl htail, show (16 * x + y) / 16 = x by omega,
      show (16 * x + y) % 16 = y by omega, hva, hwb]
    rfl
  | case2 a b l hnot =>
    simp only [List.forall_mem_cons] at hall
    obtain ⟨v, -, hv, -⟩ := hexDigit_of_isHex hall.1
    obtain ⟨w, -, hw, -⟩ := hexDigit_of_isHex hall.2.1
    exact absurd hw (hnot v w hv)
  | case3 l hnot =>
    rcases l with _ | ⟨a, _ | ⟨b, l⟩⟩
    · rfl
    · cases heven
    · exact absurd rfl (hnot a b l)

theorem bufferFromHex_hexDigits (addr : List UInt8) : bufferFromHex (hexDigits addr) = addr := by
  have hdigit : ∀ n < 16, Text.hexDigit (Nat.digitChar n) = some n := by decide
  induction addr with
  | nil => rfl
  | cons b addr ih =>
    have hb := b.toNat_lt
    have hcons : hexDigits (b :: addr) =
        Nat.digitChar (b.toNat / 16) :: Nat.digitChar (b.toNat % 16) :: hexDigits addr := rfl
    rw [hcons, bufferFromHex, hdigit _ (by omega), hdigit _ (by omega)]
    show UInt8.ofNat (16 * (b.toNat / 16) + b.toNat % 16) :: bufferFromHex (hexDigits addr) = _
    rw [Nat.div_add_mod, ih, UInt8.ofNat_toNat]

theorem toNat_lt_of_toLower {c : Char} (h : c.toLower.toNat < 128) : c.toNat < 128 := by
  by_cases hc : c.isUpper = true
  · simp only [Char.isUpper, ge_iff_le, decide_eq_true_eq] at hc
    exact lt_of_le_of_lt (show c.toNat ≤ 'Z'.toNat from hc.2) (by decide)
  · rwa [Char.toLower_eq_of_not_isUpper hc] at h

theorem hexDigits_ascii : ∀ c ∈ hexDigits addr, c.toNat < 128 ∧ c.toLower = c ∧ c ≠ 'x' := by
  have hdigit : ∀ n < 16, (Nat.digitChar n).toNat < 128 ∧
      (Nat.digitChar n).toLower = Nat.digitChar n ∧ Nat.digitChar n ≠ 'x' := by decide
  intro c hc
  obtain ⟨b, -, hc⟩ := List.mem_flatMap.1 hc
  have hb := b.toNat_lt
  rcases List.mem_cons.1 hc with rfl | hc
  · exact hdigit _ (by omega)
  · rw [List.mem_singleton.1 hc]
    exact hdigit _ (by omega)

theorem HexText.isAscii (h : HexText addr s) : IsAscii s := by
  obtain ⟨l, hl, hs⟩ := h
  have hall : ∀ c ∈ l, c.toNat < 128 := by
    intro c hc
    have hm : c.toLower ∈ hexDigits addr := hl ▸ List.mem_map_of_mem hc
    exact toNat_lt_of_toLower (hexDigits_ascii _ hm).1
  rcases hs with hs | hs
  · rwa [IsAscii, hs]
  · rw [IsAscii, hs]
    exact List.forall_mem_cons.2 ⟨by decide, List.forall_mem_cons.2 ⟨by decide, hall⟩⟩

/-- The text in lower case. -/
theorem HexText.toLowerCase (h : HexText addr s) : (u.toLowerCase s).toList = hexDigits addr ∨
    (u.toLowerCase s).toList = '0' :: 'x' :: hexDigits addr := by
  rw [u.toLowerCase_ascii s h.isAscii]
  obtain ⟨l, hl, hs | hs⟩ := h
  · exact .inl (by rw [hs, hl])
  · exact .inr (by rw [hs, ← hl]; rfl)

theorem isHex_of_toLower {c : Char} (h : isHex c.toLower = true) : isHex c = true := by
  by_cases hc : c.isUpper = true
  · simp only [Char.isUpper, ge_iff_le, decide_eq_true_eq] at hc
    exact forall_range (P := fun c => isHex c.toLower = true → isHex c = true)
      (show 'A' ≤ c from hc.1) (show c ≤ 'Z' from hc.2) (by decide) h
  · rwa [Char.toLower_eq_of_not_isUpper hc] at h

theorem hexPrefixed_iff {p : Char → Bool} {n : ℕ} {l : List Char} :
    hexPrefixed p n l = true ↔ ∃ l', l = '0' :: 'x' :: l' ∧ allOfLength p n l' = true := by
  unfold hexPrefixed
  split
  · rename_i l'
    exact ⟨fun h => ⟨l', rfl, h⟩, fun ⟨_, he, h⟩ => (List.cons.inj (List.cons.inj he).2).2 ▸ h⟩
  · rename_i hnot
    exact ⟨fun h => absurd h (by decide), fun ⟨l', he, _⟩ => absurd he (hnot l')⟩

theorem allOfLength_hexDigits (haddr : addr.length = 20) :
    allOfLength isHex 40 (hexDigits addr) = true := by
  simp only [allOfLength, length_hexDigits, haddr, List.all_eq_true, Bool.and_eq_true,
    beq_self_eq_true, true_and]
  exact fun c hc => (mem_hexDigits hc).2

theorem Web.isEvmAddress_iff : Web.isEvmAddress s = true ↔
    ∃ addr : List UInt8, addr.length = 20 ∧ HexText addr s := by
  have hdigits : ∀ l : List Char, allOfLength isHex 40 l = true ↔
      ∃ addr : List UInt8, addr.length = 20 ∧ l.map Char.toLower = hexDigits addr := by
    intro l
    constructor
    · intro h
      simp only [allOfLength, Bool.and_eq_true, beq_iff_eq, List.all_eq_true] at h
      have hbytes := hexDigits_bufferFromHex h.2 (by rw [h.1])
      refine ⟨bufferFromHex l, ?_, hbytes.symm⟩
      have hlength := congrArg List.length hbytes
      rw [length_hexDigits, List.length_map, h.1] at hlength
      omega
    · rintro ⟨addr, haddr, hl⟩
      have hlower := allOfLength_hexDigits haddr
      rw [← hl] at hlower
      simp only [allOfLength, Bool.and_eq_true, beq_iff_eq, List.all_eq_true, List.length_map,
        List.forall_mem_map] at hlower ⊢
      exact ⟨hlower.1, fun c hc => isHex_of_toLower (hlower.2 c hc)⟩
  simp only [Web.isEvmAddress, Bool.or_eq_true, hexPrefixed_iff, hdigits]
  constructor
  · rintro (⟨l, hs, addr, haddr, hl⟩ | ⟨addr, haddr, hl⟩)
    · exact ⟨addr, haddr, l, hl, .inr hs⟩
    · exact ⟨addr, haddr, s.toList, hl, .inl rfl⟩
  · rintro ⟨addr, haddr, l, hl, rfl | hs⟩
    · exact .inr ⟨addr, haddr, hl⟩
    · exact .inl ⟨l, hs, addr, haddr, hl⟩

/-- The bytes of a form in lower case. -/
theorem bufferFromHex_lower {l : List Char}
    (h : l = hexDigits addr ∨ l = '0' :: 'x' :: hexDigits addr) :
    bufferFromHex (replaceHexMark l) = addr := by
  have hplain : ∀ l : List Char, 'x' ∉ l → replaceHexMark l = l := by
    intro l
    fun_induction replaceHexMark l with
    | case1 l => exact fun h => absurd (List.mem_cons_of_mem _ List.mem_cons_self) h
    | case2 c l _ ih => exact fun h => by rw [ih fun hm => h (List.mem_cons_of_mem _ hm)]
    | case3 => exact fun _ => rfl
  rcases h with rfl | rfl
  · rw [hplain _ fun hm => (hexDigits_ascii _ hm).2.2 rfl, bufferFromHex_hexDigits]
  · exact bufferFromHex_hexDigits addr

/-! ## Bech32 texts -/

/-- The text is the bech32 form of the bytes under a prefix, in lower or in upper case. -/
structure Bech32Text (p : String) (addr : List UInt8) (s : String) : Prop where
  valid : Bech32.ValidHrp p.toList
  length : (Bech32.encode p addr).toList.length ≤ 90
  text : s.toList = (Bech32.encode p addr).toList ∨
    s.toList = (Bech32.encode p addr).toList.map Char.toUpper

theorem Bech32Text.length_text {p : String} (h : Bech32Text p addr s) : s.toList.length ≤ 90 := by
  rcases h.text with hs | hs
  · rw [hs]
    exact h.length
  · rw [hs, List.length_map]
    exact h.length

theorem isAscii_of_valid {p : String} (h : Bech32.ValidHrp p.toList) : IsAscii p := by
  intro c hc
  have hchar := h.chars c hc
  simp only [Bech32.isHrpChar, Bool.and_eq_true, decide_eq_true_eq] at hchar
  omega

theorem encode_chars {p : String} (h : Bech32.ValidHrp p.toList) :
    ∀ c ∈ (Bech32.encode p addr).toList, c.toNat < 128 ∧ c.toLower = c := by
  have hcharset : ∀ c ∈ Bech32.charset, c.toNat < 128 ∧ c.toLower = c :=
    forall_chars (by decide)
  have hone : "1".toList = ['1'] := rfl
  intro c hc
  rw [Bech32.encode, String.toList_append, String.toList_append, hone, String.toList_ofList,
    List.append_assoc] at hc
  rcases List.mem_append.1 hc with hc | hc
  · exact ⟨isAscii_of_valid h c hc, List.map_inj_left.1 (h.lower.trans (List.map_id _).symm) c hc⟩
  · rcases List.mem_cons.1 hc with rfl | hc
    · decide
    · exact hcharset c (Bech32.mem_charset_of_mem_data hc)

theorem Bech32Text.toLower {p : String} (h : Bech32Text p addr s) :
    s.toList.map Char.toLower = (Bech32.encode p addr).toList := by
  have hlower : (Bech32.encode p addr).toList.map Char.toLower = (Bech32.encode p addr).toList :=
    (List.map_congr_left fun c hc => (encode_chars h.valid c hc).2).trans (List.map_id _)
  rcases h.text with hs | hs
  · rw [hs, hlower]
  · rw [hs, List.map_map]
    refine Eq.trans (List.map_congr_left fun c _ => ?_) hlower
    exact Char.toLower_toUpper_eq_toLower c

theorem Bech32Text.isAscii {p : String} (h : Bech32Text p addr s) : IsAscii s := by
  intro c hc
  have hm : c.toLower ∈ (Bech32.encode p addr).toList := h.toLower ▸ List.mem_map_of_mem hc
  exact toNat_lt_of_toLower (encode_chars h.valid _ hm).1

theorem Bech32Text.toLowerCase {p : String} (h : Bech32Text p addr s) :
    u.toLowerCase s = Bech32.encode p addr := by
  rw [← String.toList_inj, u.toLowerCase_ascii s h.isAscii, h.toLower]

theorem Bech32Text.encode {p : String} (h : Bech32Text p addr s) :
    Bech32Text p addr (Bech32.encode p addr) :=
  ⟨h.valid, h.length, .inl rfl⟩

section

variable (hL : L.Standard)
include hL

/-- **What is parsed** are the bech32 texts. -/
theorem fromBech32_eq_some_iff (hs : IsAscii s) {throwErr : Bool} {a : RollappAddress} :
    RollappAddress.fromBech32 L s none throwErr = some a ↔
      Bech32Text a.addressPrefix a.address s := by
  have hunfold : RollappAddress.fromBech32 L s none throwErr = (L.decode s).bind fun decoded =>
      (L.fromWords decoded.2).bind fun address => some ⟨address, decoded.1⟩ := rfl
  rw [hunfold, hL.decode s hs]
  constructor
  · intro h
    obtain ⟨⟨p, words⟩, hdecode, h⟩ := Option.bind_eq_some_iff.1 h
    obtain ⟨address, hwords, h⟩ := Option.bind_eq_some_iff.1 h
    obtain rfl := Option.some.inj h
    obtain ⟨hvalid, hlt, hlength, hcase⟩ := Bech32.decode_eq_some_iff.1 hdecode
    rw [hL.fromWords _ hlt, Bech32.fromWords_eq_some_iff hlt] at hwords
    rw [← hwords, ← Bech32.toList_encode] at hcase
    refine ⟨hvalid, ?_, hcase⟩
    rcases hcase with hs | hs
    · rwa [← hs]
    · rwa [hs, List.length_map] at hlength
  · intro h
    have hlt := Bech32.convertBits_lt a.address
    have htext := h.text
    rw [Bech32.toList_encode] at htext
    rw [Bech32.decode_eq_some_iff.2 ⟨h.valid, hlt, h.length_text, htext⟩]
    show (L.fromWords _).bind _ = _
    rw [hL.fromWords _ hlt, (Bech32.fromWords_eq_some_iff hlt).2 rfl]
    rfl

/-- Under another prefix the address is the same. -/
theorem fromBech32_other {p : String} (h : Bech32Text p addr s) (accountPrefix : String) :
    ∃ q, RollappAddress.fromBech32 L s (some accountPrefix) false = some ⟨addr, q⟩ := by
  have hlt := Bech32.convertBits_lt addr
  have htext := h.text
  rw [Bech32.toList_encode] at htext
  have hdecode : L.decode s = some (p, Bech32.convertBits addr) := by
    rw [hL.decode s h.isAscii]
    exact Bech32.decode_eq_some_iff.2 ⟨h.valid, hlt, h.length_text, htext⟩
  have hwords : L.fromWords (Bech32.convertBits addr) = some addr := by
    rw [hL.fromWords _ hlt, (Bech32.fromWords_eq_some_iff hlt).2 rfl]
  unfold RollappAddress.fromBech32
  rw [hdecode]
  cases hf : (some accountPrefix).filter (· ≠ "") with
  | none => exact ⟨p, by simp [hwords]⟩
  | some q => exact ⟨q, by simp [hwords]⟩

theorem toBech32_eq {p : String} (hvalid : Bech32.ValidHrp p.toList)
    (hlength : (Bech32.encode p addr).toList.length ≤ 90) :
    (RollappAddress.mk addr p).toBech32 L = some (Bech32.encode p addr) := by
  rw [RollappAddress.toBech32, hL.toWords, hL.encode _ _ (isAscii_of_valid hvalid)]
  exact Bech32.encodeWords_convertBits hvalid hlength

theorem toHex_of_length {p : String} (haddr : addr.length = 20) :
    ∃ t, (RollappAddress.mk addr p).toHex L true = some t ∧ Checksummed addr t := by
  have hlower : (hexDigits addr).map Char.toLower = hexDigits addr :=
    (List.map_congr_left fun c hc => (hexDigits_ascii c hc).2.1).trans (List.map_id _)
  have htext : HexText addr (String.ofList (hexDigits addr)) :=
    ⟨hexDigits addr, hlower, .inl String.toList_ofList⟩
  obtain ⟨t, ht⟩ := hL.getAddress addr _ haddr htext (by rw [String.toList_ofList, hlower])
  refine ⟨t, ?_, hL.getAddress_checksummed addr _ t haddr htext ht⟩
  simp only [RollappAddress.toHex]
  have hlength : (String.ofList (hexDigits addr)).toList.length ≠ 0 := by
    rw [String.toList_ofList, length_hexDigits, haddr]
    decide
  rw [if_neg hlength]
  exact ht

theorem toHex_of_length_ne {p : String} (haddr : addr.length ≠ 20) :
    (RollappAddress.mk addr p).toHex L true = none := by
  simp only [RollappAddress.toHex]
  split_ifs
  · rfl
  · exact hL.getAddress_length addr _ String.toList_ofList haddr

end

/-! ## What the page shows -/

/-- The `0x` form that is shown: one of the bytes on EVM chains, and none on others. -/
structure EvmForm (chain : AddressRollapp) (addr : List UInt8) (evmAddress : Option String) :
    Prop where
  evm : chain.isEvm = true → ∃ t, evmAddress = some t ∧ Checksummed addr t
  other : chain.isEvm = false → evmAddress = none

/-- The page shows the account with the bytes, or the validator. -/
inductive AddressView.Shows (chain : AddressRollapp) (addr : List UInt8) : AddressView → Prop
  | account {evmAddress : Option String} : EvmForm chain addr evmAddress →
      Shows chain addr
        (.account (Bech32.encode chain.bech32.bech32PrefixAccAddr addr) evmAddress)
  | validator {p : String} {evmAddress : Option String} :
      p = chain.bech32.bech32PrefixOperator ∨ p = chain.bech32.bech32PrefixCons →
        EvmForm chain addr evmAddress →
          Shows chain addr (.validator (Bech32.encode p addr) evmAddress)

/-- The account prefix is one whose addresses can be encoded. -/
structure EncodablePrefix (p : String) : Prop where
  valid : Bech32.ValidHrp p.toList
  length : p.toList.length ≤ 51

theorem EncodablePrefix.length_encode {p : String} (h : EncodablePrefix p)
    (haddr : addr.length = 20) : (Bech32.encode p addr).toList.length ≤ 90 := by
  have hp := h.length
  have hone : "1".toList = ['1'] := rfl
  rw [Bech32.encode, String.toList_append, String.toList_append, hone, String.toList_ofList,
    List.append_assoc, List.length_append, List.length_append, Bech32.length_data, haddr,
    List.length_singleton]
  omega

section

variable (hL : L.Standard) {chain : AddressRollapp}
include hL

theorem exists_evmForm {p : String} (haddr : chain.isEvm = true → addr.length = 20) :
    ∃ e, shownEvmAddress L chain ⟨addr, p⟩ = some e ∧ EvmForm chain addr e := by
  unfold shownEvmAddress
  cases hevm : chain.isEvm with
  | true =>
    obtain ⟨t, ht, hchecksummed⟩ := toHex_of_length hL (p := p) (haddr hevm)
    refine ⟨some t, by rw [if_pos rfl, ht]; rfl, fun _ => ⟨t, rfl, hchecksummed⟩, fun h => ?_⟩
    rw [hevm] at h
    cases h
  | false =>
    refine ⟨none, rfl, fun h => ?_, fun _ => rfl⟩
    rw [hevm] at h
    cases h

/-- **The page of a hexadecimal form** on an EVM chain. -/
theorem addressPage_hex (hevm : chain.isEvm = true)
    (hencodable : EncodablePrefix chain.bech32.bech32PrefixAccAddr) (haddr : addr.length = 20)
    (hs : HexText addr s) : ∃ e, addressPage L u chain s =
      some (.account (Bech32.encode chain.bech32.bech32PrefixAccAddr addr) e) ∧
        EvmForm chain addr e := by
  have hlower := hs.toLowerCase (u := u)
  have hweb : Web.isEvmAddress (u.toLowerCase s) = true := by
    refine Web.isEvmAddress_iff.2 ⟨addr, haddr, hexDigits addr, ?_, hlower⟩
    exact (List.map_congr_left fun c hc => (hexDigits_ascii c hc).2.1).trans (List.map_id _)
  have hparse : parseAddress L chain (u.toLowerCase s) =
      some (some (⟨addr, chain.bech32.bech32PrefixAccAddr⟩, none)) := by
    simp only [parseAddress, hevm, hweb, Bool.and_self, if_true, RollappAddress.fromHex,
      bufferFromHex_lower hlower]
  obtain ⟨e, he, hform⟩ : ∃ e, shownEvmAddress L chain
      ⟨addr, chain.bech32.bech32PrefixAccAddr⟩ = some e ∧ EvmForm chain addr e :=
    exists_evmForm hL fun _ => haddr
  refine ⟨e, ?_, hform⟩
  simp only [addressPage, hparse, Option.bind_eq_bind, Option.bind_some, Option.getD_none,
    toBech32_eq hL hencodable.valid (hencodable.length_encode haddr), he]
  rfl

/-- The page of a bech32 form parses it. -/
theorem parseAddress_bech32 {p : String} (hs : Bech32Text p addr s)
    (hnot : (chain.isEvm && Web.isEvmAddress (Bech32.encode p addr)) = false)
    (hp : p = chain.bech32.bech32PrefixAccAddr ∨ p = chain.bech32.bech32PrefixOperator ∨
      p = chain.bech32.bech32PrefixCons) :
    ∃ q v, parseAddress L chain (u.toLowerCase s) = some (some (⟨addr, q⟩, v)) ∧
      v.getD ⟨addr, q⟩ = ⟨addr, p⟩ ∧
      (v.isSome = true → p = chain.bech32.bech32PrefixOperator ∨
        p = chain.bech32.bech32PrefixCons) ∧
      (v = none ↔ p = chain.bech32.bech32PrefixAccAddr) := by
  have hencode := hs.encode
  have hparsed : RollappAddress.fromBech32 L (Bech32.encode p addr) none true = some ⟨addr, p⟩ :=
    (fromBech32_eq_some_iff hL hencode.isAscii).2 hencode
  obtain ⟨q, hq⟩ := fromBech32_other hL hencode chain.bech32.bech32PrefixAccAddr
  simp only [parseAddress, hs.toLowerCase, hnot, Bool.false_eq_true, if_false, hparsed,
    Option.bind_eq_bind, Option.bind_some]
  by_cases hacc : p = chain.bech32.bech32PrefixAccAddr
  · exact ⟨p, none, if_pos hacc, rfl, nofun, iff_of_true rfl hacc⟩
  · have hval := hp.resolve_left hacc
    refine ⟨q, some ⟨addr, p⟩, ?_, rfl, fun _ => hval, iff_of_false nofun hacc⟩
    rw [if_neg hacc, if_pos hval, hq]
    rfl

/-- **The page of a bech32 form** shows the address, unless the chain is an EVM chain and the
    address has not 20 bytes. -/
theorem addressPage_bech32 {p : String} (hs : Bech32Text p addr s)
    (hnot : (chain.isEvm && Web.isEvmAddress (Bech32.encode p addr)) = false)
    (hp : p = chain.bech32.bech32PrefixAccAddr ∨ p = chain.bech32.bech32PrefixOperator ∨
      p = chain.bech32.bech32PrefixCons) :
    ((chain.isEvm = true → addr.length = 20) → ∃ view, addressPage L u chain s = some view ∧
      view.Shows chain addr ∧ (p = chain.bech32.bech32PrefixAccAddr →
        ∃ e, view = .account (Bech32.encode p addr) e ∧ EvmForm chain addr e)) ∧
    (¬ (chain.isEvm = true → addr.length = 20) → addressPage L u chain s = none) := by
  obtain ⟨q, v, hparse, hgetD, hval, hacc⟩ := parseAddress_bech32 hL (u := u) hs hnot hp
  have hbech32 : (v.getD ⟨addr, q⟩).toBech32 L = some (Bech32.encode p addr) := by
    rw [hgetD]
    exact toBech32_eq hL hs.valid hs.length
  constructor
  · intro haddr
    obtain ⟨e, he, hform⟩ := exists_evmForm hL (p := q) haddr
    cases v with
    | none =>
      have hview : addressPage L u chain s = some (.account (Bech32.encode p addr) e) := by
        simp only [addressPage, hparse, Option.bind_eq_bind, Option.bind_some, hbech32, he]
        rfl
      have hshows := AddressView.Shows.account hform
      rw [← hacc.1 rfl] at hshows
      exact ⟨_, hview, hshows, fun _ => ⟨e, rfl, hform⟩⟩
    | some val =>
      have hview : addressPage L u chain s = some (.validator (Bech32.encode p addr) e) := by
        simp only [addressPage, hparse, Option.bind_eq_bind, Option.bind_some, hbech32, he]
        rfl
      exact ⟨_, hview, .validator (hval rfl) hform, fun h => absurd (hacc.2 h) nofun⟩
  · intro hlength
    rw [Classical.not_imp] at hlength
    have hnone : shownEvmAddress L chain ⟨addr, q⟩ = none := by
      rw [shownEvmAddress, if_pos hlength.1, toHex_of_length_ne hL hlength.2]
      rfl
    simp only [addressPage, hparse, Option.bind_eq_bind, Option.bind_some, hbech32, hnone,
      Option.bind_none]

end

/-! ## Search hits -/

/-- A prefix of at least two lower case letters. -/
structure LetterPrefix (p : String) : Prop where
  letters : ∀ c ∈ p.toList, isLowerLetter c = true
  two_le : 2 ≤ p.toList.length
  le : p.toList.length ≤ 51

theorem isLowerLetter_spec {c : Char} (h : isLowerLetter c = true) :
    Go.toLowerRune c = c ∧ Go.isSpace c = false ∧ Bech32.isHrpChar c = true ∧ c.toLower = c ∧
      c ≠ '1' ∧ c ≠ '0' := by
  simp only [isLowerLetter, Bool.and_eq_true, decide_eq_true_eq] at h
  exact forall_range (P := fun c => Go.toLowerRune c = c ∧ Go.isSpace c = false ∧
    Bech32.isHrpChar c = true ∧ c.toLower = c ∧ c ≠ '1' ∧ c ≠ '0') h.1 h.2 (by decide)

theorem toList_encode_data {p : String} : (Bech32.encode p addr).toList =
    p.toList ++ '1' :: Bech32.data p.toList addr := by
  rw [Bech32.toList_encode]
  rfl

section

variable {p : String} (hp : LetterPrefix p)
include hp

theorem LetterPrefix.ne_nil : p.toList ≠ [] := by
  intro h
  have htwo := hp.two_le
  rw [h] at htwo
  exact absurd htwo (by decide)

theorem LetterPrefix.encodable : EncodablePrefix p where
  valid := ⟨hp.ne_nil, fun c hc => (isLowerLetter_spec (hp.letters c hc)).2.2.1,
    (List.map_congr_left fun c hc => (isLowerLetter_spec (hp.letters c hc)).2.2.2.1).trans
      (List.map_id _)⟩
  length := hp.le

theorem LetterPrefix.exists_cons : ∃ c l, p.toList = c :: l ∧ isLowerLetter c = true := by
  obtain ⟨c, l, h⟩ := List.exists_cons_of_ne_nil hp.ne_nil
  exact ⟨c, l, h, hp.letters c (h ▸ List.mem_cons_self)⟩

theorem LetterPrefix.dropWhile : p.toList.dropWhile Go.isSpace = p.toList := by
  obtain ⟨c, l, h, hc⟩ := hp.exists_cons
  rw [h, List.dropWhile_cons_of_neg]
  rw [(isLowerLetter_spec hc).2.1]
  decide

theorem LetterPrefix.splittable : Splittable p := by
  refine splittable_iff.2 ⟨by rw [hp.dropWhile]; exact hp.ne_nil, ?_⟩
  rw [hp.dropWhile, one_mem_lower]
  exact fun h => (isLowerLetter_spec (hp.letters _ h)).2.2.2.2.1 rfl

/-- The bech32 form is its own normal form. -/
theorem LetterPrefix.toList_encode : (Bech32.encode p addr).toList =
    normalBech32 p (Bech32.data p.toList addr) := by
  have hlower : p.toList.map Go.toLowerRune = p.toList :=
    (List.map_congr_left fun c hc => (isLowerLetter_spec (hp.letters c hc)).1).trans
      (List.map_id _)
  rw [normalBech32, hp.dropWhile, hlower, toList_encode_data]

theorem LetterPrefix.normalize : normalizeAddress (Bech32.encode p addr) =
    Bech32.encode p addr := by
  rw [← String.toList_inj, hp.toList_encode]
  exact normalize_bech32 fun c hc => Bech32.mem_charset_of_mem_data hc

theorem LetterPrefix.not_evm (haddr : addr.length = 20) :
    isEvmAddress (Bech32.encode p addr) = false ∧
      Web.isEvmAddress (Bech32.encode p addr) = false := by
  have hzero : ∀ l : List Char, (Bech32.encode p addr).toList ≠ '0' :: l := by
    intro l he
    obtain ⟨c, l', h, hc⟩ := hp.exists_cons
    rw [toList_encode_data, h] at he
    exact (isLowerLetter_spec hc).2.2.2.2.2 (List.cons.inj he).1
  constructor
  · rw [Bool.eq_false_iff, isEvmAddress, hp.normalize]
    intro h
    obtain ⟨l, he, -⟩ := hexPrefixed_iff.1 h
    exact hzero _ he
  · rw [Bool.eq_false_iff]
    intro h
    obtain ⟨addr', haddr', l, hl, hs | hs⟩ := Web.isEvmAddress_iff.1 h
    · have hlength := congrArg List.length hl
      have htwo := hp.two_le
      rw [← hs, List.length_map, toList_encode_data, List.length_append, List.length_cons,
        Bech32.length_data, length_hexDigits, haddr, haddr'] at hlength
      omega
    · exact hzero _ hs

end

/-- The assumption on the Cosmos SDK: under a prefix of letters, 20 bytes have their bech32 form. -/
def SdkBech32 (sdk : Sdk) : Prop :=
  ∀ hrp addr, LetterPrefix hrp → addr.length = 20 →
    sdk.bech32ifyAddressBytes hrp addr = .ok (Bech32.encode hrp addr)

/-- The key of every form that the indexer receives. -/
theorem indexed_key {sdk : Sdk} (hsdk : SdkBech32 sdk) {bech32Cfg : Bech32PrefixOfChainInfo}
    (hp : LetterPrefix bech32Cfg.bech32PrefixAccAddr) (haddr : addr.length = 20)
    (hs : HexForm addr s ∨ s = Bech32.encode bech32Cfg.bech32PrefixAccAddr addr) :
    unsafeAnyAddressToBech32Address sdk s bech32Cfg =
      .ok (some (Bech32.encode bech32Cfg.bech32PrefixAccAddr addr)) := by
  rcases hs with hs | rfl
  · have hb := hsdk _ addr hp haddr
    rw [← hs.hexToAddress] at hb
    rw [unsafeAnyAddressToBech32Address_evm (hs.isEvmAddress haddr) hb, hs.hexToAddress,
      hp.normalize]
  · have hb : (Bech32.encode bech32Cfg.bech32PrefixAccAddr addr).toList = _ := hp.toList_encode
    have hsplit := (unsafeExtractBech32Hrp_normal hb (by rw [Bech32.length_data, haddr])
      fun c hc => Bech32.mem_charset_of_mem_data hc).2 hp.splittable
    have hkey : unsafeAnyAddressToBech32Address sdk
        (Bech32.encode bech32Cfg.bech32PrefixAccAddr addr) bech32Cfg =
          .ok (some (normalizeAddress (Bech32.encode bech32Cfg.bech32PrefixAccAddr addr))) :=
      (unsafeAnyAddressToBech32Address_bech32 (hp.not_evm haddr).1).2 (by rwa [hp.normalize])
    rwa [hp.normalize] at hkey

/-- **One account has one page, of the rows that are indexed**: on an EVM chain, the page of every
    form of an account, in any letter case, reads the rows of the key under which the indexer
    stores every form of the account. -/
theorem addressPage_key (L : AddressLibs) (hL : L.Standard) (u : CaseMapping) (sdk : Sdk)
    (hsdk : SdkBech32 sdk) (chain : AddressRollapp) (hevm : chain.isEvm = true)
    (hp : LetterPrefix chain.bech32.bech32PrefixAccAddr) (addr : List UInt8)
    (haddr : addr.length = 20) : ∃ key,
    (∀ s, HexText addr s ∨ Bech32Text chain.bech32.bech32PrefixAccAddr addr s →
      ∃ t, addressPage L u chain s = some (.account key (some t)) ∧ Checksummed addr t) ∧
    ∀ s, HexForm addr s ∨ s = key →
      unsafeAnyAddressToBech32Address sdk s chain.bech32 = .ok (some key) := by
  refine ⟨Bech32.encode chain.bech32.bech32PrefixAccAddr addr, ?_,
    fun s hs => indexed_key hsdk hp haddr hs⟩
  have hshown : ∀ {s e}, addressPage L u chain s =
      some (.account (Bech32.encode chain.bech32.bech32PrefixAccAddr addr) e) →
      EvmForm chain addr e → ∃ t, addressPage L u chain s = some (.account
        (Bech32.encode chain.bech32.bech32PrefixAccAddr addr) (some t)) ∧ Checksummed addr t := by
    intro s e hpage hform
    obtain ⟨t, rfl, ht⟩ := hform.evm hevm
    exact ⟨t, hpage, ht⟩
  rintro s (hs | hs)
  · obtain ⟨e, hpage, hform⟩ := addressPage_hex hL (u := u) hevm hp.encodable haddr hs
    exact hshown hpage hform
  · have hnot : (chain.isEvm && Web.isEvmAddress
        (Bech32.encode chain.bech32.bech32PrefixAccAddr addr)) = false := by
      rw [(hp.not_evm haddr).2, Bool.and_false]
    obtain ⟨view, hpage, -, haccount⟩ := (addressPage_bech32 hL (u := u) hs hnot (.inl rfl)).1
      fun _ => haddr
    obtain ⟨e, rfl, hform⟩ := haccount rfl
    exact hshown hpage hform

end

/-! ## An account -/

/-- The packages, with checksummed forms in lower case. -/
def sampleLibs : AddressLibs where
  decode := Bech32.decode 90
  encode := Bech32.encodeWords 90
  toWords := Bech32.convertBits
  fromWords := Bech32.fromWords
  getAddress s := if Web.isEvmAddress s then
    some (String.ofList ('0' :: 'x' :: (withoutHexMark s.toList).map Char.toLower)) else none

theorem standard_sampleLibs : sampleLibs.Standard where
  decode _ _ := rfl
  encode _ _ _ := rfl
  toWords _ := rfl
  fromWords _ _ := rfl
  getAddress addr s haddr hs _ := ⟨_, if_pos (Web.isEvmAddress_iff.2 ⟨addr, haddr, hs⟩)⟩
  getAddress_checksummed := by
    rintro addr s t haddr ⟨l, hl, hs⟩ ht
    have hweb : Web.isEvmAddress s = true := Web.isEvmAddress_iff.2 ⟨addr, haddr, l, hl, hs⟩
    obtain rfl := Option.some.inj ((if_pos hweb).symm.trans ht)
    have hplain : 'x' ∉ l := by
      intro hx
      have hm : 'x'.toLower ∈ hexDigits addr := hl ▸ List.mem_map_of_mem hx
      exact (hexDigits_ascii _ hm).2.2 rfl
    have hmark : withoutHexMark s.toList = l := by
      rcases hs with hs | hs
      · rw [hs]
        unfold withoutHexMark
        split
        · exact absurd (List.mem_cons_of_mem _ List.mem_cons_self) hplain
        · rfl
      · rw [hs]
        rfl
    refine ⟨l.map Char.toLower, ?_, by rw [String.toList_ofList, hmark]⟩
    rw [hl]
    exact (List.map_congr_left fun c hc => (hexDigits_ascii c hc).2.1).trans (List.map_id _)
  getAddress_length := by
    intro addr s hs haddr
    refine if_neg fun hweb => ?_
    obtain ⟨addr', haddr', l, hl, hs' | hs'⟩ := Web.isEvmAddress_iff.1 hweb
    · have hlength := congrArg List.length hl
      rw [List.length_map, ← hs', hs, length_hexDigits, length_hexDigits, haddr'] at hlength
      omega
    · have hx : 'x' ∈ hexDigits addr := by
        rw [← hs, hs']
        exact List.mem_cons_of_mem _ List.mem_cons_self
      exact (hexDigits_ascii _ hx).2.2 rfl

theorem sdkBech32_bech32Sdk : SdkBech32 bech32Sdk := fun _ _ _ _ => rfl

/-- An EVM chain with the prefix `rol`. -/
def rolChain : AddressRollapp where
  path := "/rol"
  isFavorite := false
  name := "rol"
  chainId := "rol_1-1"
  latestIndexedBlock := 0
  chainType := "evm"
  bech32 := ⟨"rol", "rolvalcons", "rolvaloper"⟩

theorem letterPrefix_rol : LetterPrefix "rol" :=
  ⟨List.all_eq_true.1 (by decide), by decide, by decide⟩

theorem addressPage_key_rol : ∃ key,
    (∀ s, HexText zeroAddress s ∨ Bech32Text "rol" zeroAddress s →
      ∃ t, addressPage sampleLibs default rolChain s = some (.account key (some t)) ∧
        Checksummed zeroAddress t) ∧
    ∀ s, HexForm zeroAddress s ∨ s = key →
      unsafeAnyAddressToBech32Address bech32Sdk s rolChain.bech32 = .ok (some key) :=
  addressPage_key sampleLibs standard_sampleLibs default bech32Sdk sdkBech32_bech32Sdk rolChain
    (by decide) letterPrefix_rol zeroAddress rfl

end RollappExplorer
