/-
  Amounts of coins as texts (`utils/common.ts`).

  The amount and the denom of a coin are found by two regular expressions, at the two ends of a
  text.  The text may be a list of coins.

  * `getAmount`, `getDenom`, `formatRpcAmount`;
  * `CoinText`: an amount with a denom; `coinsText`: a list of them;
  * `getDenom_coinsText`: the denom of a list is the end of its last coin;
  * `showCoin`: an amount with the metadata of its denom, or with the denom itself;
  * `showsOwnDenom_iff`: an amount is shown with its own denom iff the last denom ends with the
    first one, which is not found in `Object.prototype`, or with no letter from `a` to `z`.
-/
import Mathlib.Data.List.DropRight
import RollappExplorer.Js.Collections
import RollappExplorer.Js.Text
import RollappExplorer.Numbers

namespace RollappExplorer

open Js Text

/-! ## `common.ts` -/

/-- `DenomMetadata`, with the fields that are shown. -/
structure DenomMetadata where
  symbol : String
  highestExponent : ℕ

/-- `/^\d+/` -/
def getAmount (rpcAmountStr : String) : String :=
  let matched := rpcAmountStr.toList.takeWhile Char.isDigit
  if matched ≠ [] then String.ofList matched else "0"

/-- `/[a-z]+$/`: the leftmost match is the longest one. -/
def getDenom (rpcAmountStr : String) : Option String :=
  let matched := rpcAmountStr.toList.rtakeWhile Char.isLower
  if matched ≠ [] then some (String.ofList matched) else none

/-- The part of `formatRpcAmount` that follows the two matches. -/
def showAmount (u : CaseMapping) (J : BigJs) (amount : String) (denom : Option String)
    (denomsMetadata : Map String DenomMetadata) : Option String :=
  match denom.bind (getProperty denomsMetadata) with
  | none => do
    let denomDisplay := match denom with
      | some denom => " " ++ u.toUpperCase denom
      | none => ""
    return (← formatBlockchainAmount J (some (.inr amount)) none none) ++ denomDisplay
  | some rewardDenomMetadata => do
    let text ← formatBlockchainAmount J (some (.inr amount))
      (rewardDenomMetadata.field DenomMetadata.highestExponent) none
    return text ++ " " ++ (rewardDenomMetadata.field DenomMetadata.symbol).getD "undefined"

def formatRpcAmount (u : CaseMapping) (J : BigJs) (amountStr : String)
    (denomsMetadata : Map String DenomMetadata) : Option String :=
  showAmount u J (getAmount amountStr) (getDenom amountStr) denomsMetadata

/-! ## Coins -/

/-- `[a-zA-Z][a-zA-Z0-9/:._-]{2,127}` -/
def isDenom (s : String) : Bool :=
  match s.toList with
  | [] => false
  | c :: l => c.isAlpha && (2 ≤ l.length && l.length ≤ 127) &&
      l.all fun c => c.isAlphanum || c ∈ ['/', ':', '.', '_', '-']

/-- A coin: digits with a denom. -/
structure CoinText where
  amount : String
  denom : String
  amount_digits : isDigits amount = true
  denom_valid : isDenom denom = true

/-- The coins with commas between them. -/
def coinsText : List CoinText → List Char
  | [] => []
  | [coin] => coin.amount.toList ++ coin.denom.toList
  | coin :: coins => coin.amount.toList ++ coin.denom.toList ++ ',' :: coinsText coins

/-- The letters from `a` to `z` at the end of a text. -/
def lowerEnding (s : String) : String := String.ofList (s.toList.rtakeWhile Char.isLower)

/-- The amount in units of the metadata that the map has for the denom, with the symbol; without
    metadata, the amount with the denom. -/
def showCoin (u : CaseMapping) (J : BigJs) (denomsMetadata : Map String DenomMetadata)
    (coin : CoinText) : Option String :=
  match denomsMetadata.lookup coin.denom with
  | none => do
    let text ← formatBlockchainAmount J (some (.inr coin.amount)) none none
    return text ++ " " ++ u.toUpperCase coin.denom
  | some metadata => do
    let text ← formatBlockchainAmount J (some (.inr coin.amount))
      (some metadata.highestExponent) none
    return text ++ " " ++ metadata.symbol

/-- The amount of the first coin is shown, with its own denom or none; and a single coin is shown
    with its own denom. -/
def ShowsOwnDenom (u : CaseMapping) (J : BigJs) (denomsMetadata : Map String DenomMetadata)
    (coins : List CoinText) : Prop :=
  match coins with
  | [] => True
  | [coin] =>
    getAmount (String.ofList (coinsText [coin])) = coin.amount ∧
      getDenom (String.ofList (coinsText [coin])) = some coin.denom ∧
      formatRpcAmount u J (String.ofList (coinsText [coin])) denomsMetadata =
        showCoin u J denomsMetadata coin
  | first :: second :: rest =>
    getAmount (String.ofList (coinsText (first :: second :: rest))) = first.amount ∧
      ∀ denom, getDenom (String.ofList (coinsText (first :: second :: rest))) = some denom →
        denom = first.denom ∧
          formatRpcAmount u J (String.ofList (coinsText (first :: second :: rest)))
            denomsMetadata = showCoin u J denomsMetadata first

/-- The map has metadata of the denom, or the denom is no name of `Object.prototype`. -/
def NotInherited (denomsMetadata : Map String DenomMetadata) (denom : String) : Prop :=
  denom ∈ denomsMetadata ∨ denom ∉ objectPrototype

/-- A single denom has only letters from `a` to `z` and is not inherited; in a list, the last denom
    ends with none of them, or with exactly the first denom, which is not inherited. -/
def DenomsFound (denomsMetadata : Map String DenomMetadata) : List CoinText → Prop
  | [] => True
  | [coin] =>
    (∀ c ∈ coin.denom.toList, c.isLower = true) ∧ NotInherited denomsMetadata coin.denom
  | first :: second :: rest =>
    lowerEnding ((second :: rest).getLast (List.cons_ne_nil _ _)).denom = "" ∨
      lowerEnding ((second :: rest).getLast (List.cons_ne_nil _ _)).denom = first.denom ∧
        NotInherited denomsMetadata first.denom

variable {u : CaseMapping} {J : BigJs} {denomsMetadata : Map String DenomMetadata}
  {coin : CoinText} {coins : List CoinText} {s : String} {c : Char} {l : List Char}

theorem exists_of_isDenom (h : isDenom s = true) : ∃ c l, s.toList = c :: l ∧ c.isAlpha = true := by
  unfold isDenom at h
  split at h
  · cases h
  · next c l hs =>
    rw [Bool.and_eq_true, Bool.and_eq_true] at h
    exact ⟨c, l, hs, h.1.1⟩

theorem isLower_of_isDigit (h : c.isDigit = true) : c.isLower = false := by
  obtain ⟨-, hle⟩ := Char.isDigit_iff_toNat.1 h
  rw [Bool.eq_false_iff]
  intro hlower
  have hge : 'a'.toNat ≤ c.toNat := (of_decide_eq_true (Bool.and_eq_true_iff.1 hlower).1)
  have ha : 'a'.toNat = 97 := rfl
  have hnine : '9'.toNat = 57 := rfl
  omega

theorem isDigit_of_isAlpha (h : c.isAlpha = true) : c.isDigit = false := by
  rw [Bool.eq_false_iff]
  intro hdigit
  obtain ⟨-, hle⟩ := Char.isDigit_iff_toNat.1 hdigit
  have hnine : '9'.toNat = 57 := rfl
  have hA : 'A'.toNat = 65 := rfl
  rcases Bool.or_eq_true_iff.1 h with hupper | hlower
  · have hge : 'A'.toNat ≤ c.toNat := (of_decide_eq_true hupper).1
    omega
  · rw [isLower_of_isDigit hdigit] at hlower
    cases hlower

/-- In front of other characters, a text does not end differently. -/
theorem rtakeWhile_append {p : Char → Bool} {l l' : List Char} (h : ∀ c ∈ l, p c = false) :
    (l ++ l').rtakeWhile p = l'.rtakeWhile p := by
  induction l' using List.reverseRecOn with
  | nil =>
    rw [List.append_nil, List.rtakeWhile_nil, List.rtakeWhile_eq_nil_iff]
    intro hne
    rw [h _ (List.getLast_mem hne)]
    exact Bool.false_ne_true
  | append_singleton l' c ih =>
    rw [← List.append_assoc, List.rtakeWhile_concat, List.rtakeWhile_concat, ih]

/-- A character that does not match ends the match. -/
theorem rtakeWhile_append_cons {p : Char → Bool} {l l' : List Char} {sep : Char}
    (h : p sep = false) : (l ++ sep :: l').rtakeWhile p = l'.rtakeWhile p := by
  induction l' using List.reverseRecOn with
  | nil => rw [List.rtakeWhile_concat_neg _ _ _ (by rw [h]; exact Bool.false_ne_true),
      List.rtakeWhile_nil]
  | append_singleton l' c ih =>
    rw [← List.cons_append, ← List.append_assoc, List.rtakeWhile_concat, List.rtakeWhile_concat, ih]

/-! ## What is found -/

theorem amount_isDigit (coin : CoinText) : ∀ c ∈ coin.amount.toList, c.isDigit = true :=
  List.all_eq_true.1 (Bool.and_eq_true_iff.1 coin.amount_digits).2

theorem amount_ne_nil (coin : CoinText) : coin.amount.toList ≠ [] :=
  of_decide_eq_true (Bool.and_eq_true_iff.1 coin.amount_digits).1

/-- The text of coins begins with the first amount, and goes on with its denom. -/
theorem exists_coinsText (coin : CoinText) (coins : List CoinText) :
    ∃ c l, coinsText (coin :: coins) = coin.amount.toList ++ c :: l ∧ c.isAlpha = true := by
  obtain ⟨c, l, hdenom, hc⟩ := exists_of_isDenom coin.denom_valid
  cases coins with
  | nil => exact ⟨c, l, by rw [coinsText, hdenom], hc⟩
  | cons second rest =>
    refine ⟨c, l ++ ',' :: coinsText (second :: rest), ?_, hc⟩
    rw [coinsText, hdenom, List.append_assoc, List.cons_append]
    exact List.cons_ne_nil _ _

/-- **The amount is that of the first coin.** -/
theorem getAmount_coinsText (coin : CoinText) (coins : List CoinText) :
    getAmount (String.ofList (coinsText (coin :: coins))) = coin.amount := by
  obtain ⟨c, l, hcoins, hc⟩ := exists_coinsText coin coins
  have hmatched : (coinsText (coin :: coins)).takeWhile Char.isDigit = coin.amount.toList := by
    rw [hcoins, List.takeWhile_append_of_pos (amount_isDigit coin),
      List.takeWhile_cons_of_neg (by rw [isDigit_of_isAlpha hc]; exact Bool.false_ne_true),
      List.append_nil]
  unfold getAmount
  rw [String.toList_ofList, hmatched]
  dsimp only
  rw [if_pos (amount_ne_nil coin), String.ofList_toList]

theorem rtakeWhile_coin (coin : CoinText) :
    (coin.amount.toList ++ coin.denom.toList).rtakeWhile Char.isLower =
      coin.denom.toList.rtakeWhile Char.isLower :=
  rtakeWhile_append fun c hc => isLower_of_isDigit (amount_isDigit coin c hc)

/-- The text of coins ends with the last denom. -/
theorem rtakeWhile_coinsText (coins : List CoinText) (hne : coins ≠ []) :
    (coinsText coins).rtakeWhile Char.isLower =
      (coins.getLast hne).denom.toList.rtakeWhile Char.isLower := by
  induction coins with
  | nil => exact absurd rfl hne
  | cons coin coins ih =>
    cases coins with
    | nil => exact rtakeWhile_coin coin
    | cons second rest =>
      rw [coinsText, rtakeWhile_append_cons (by decide), List.getLast_cons (List.cons_ne_nil _ _)]
      · exact ih (List.cons_ne_nil _ _)
      · exact List.cons_ne_nil _ _

/-- **The denom is the end of the last coin.** -/
theorem getDenom_coinsText (coins : List CoinText) (hne : coins ≠ []) :
    getDenom (String.ofList (coinsText coins)) =
      if lowerEnding (coins.getLast hne).denom = "" then none
      else some (lowerEnding (coins.getLast hne).denom) := by
  unfold getDenom
  rw [String.toList_ofList, rtakeWhile_coinsText coins hne]
  dsimp only
  have hempty : lowerEnding (coins.getLast hne).denom = "" ↔
      (coins.getLast hne).denom.toList.rtakeWhile Char.isLower = [] := by
    rw [lowerEnding, ← String.toList_inj, String.toList_ofList]
    rfl
  by_cases h : (coins.getLast hne).denom.toList.rtakeWhile Char.isLower = []
  · rw [if_neg (not_not_intro h), if_pos (hempty.2 h)]
  · rw [if_pos h, if_neg (mt hempty.1 h)]
    rfl

/-- A denom is its own ending iff it has no other characters. -/
theorem lowerEnding_eq_self_iff : lowerEnding s = s ↔ ∀ c ∈ s.toList, c.isLower = true := by
  rw [lowerEnding, ← List.rtakeWhile_eq_self_iff, ← String.toList_inj, String.toList_ofList]

theorem denom_ne_empty (coin : CoinText) : coin.denom ≠ "" := by
  obtain ⟨c, l, hdenom, -⟩ := exists_of_isDenom coin.denom_valid
  intro h
  rw [h] at hdenom
  cases hdenom

/-! ## What is shown -/

/-- The amount of a coin has a text. -/
theorem exists_amountText (J : BigJs) (coin : CoinText) :
    ∃ text, formatBlockchainAmount J (some (.inr coin.amount)) none none = some text := by
  obtain ⟨text, hformat, -⟩ :=
    formatBlockchainAmount_displays (J := J) coin.amount_digits (Nat.zero_le 20)
  exact ⟨text, hformat⟩

theorem toUpperCase_ne {name s : String} (hascii : name.toList.all (·.toNat < 128) = true)
    (hne : name.toList.map Char.toUpper ≠ s.toList) : u.toUpperCase name ≠ s := by
  have hchars : ∀ c ∈ name.toList, c.toNat < 128 := fun c hc =>
    of_decide_eq_true (List.all_eq_true.1 hascii c hc)
  rw [Ne, ← String.toList_inj, u.toUpperCase_ascii name hchars]
  exact hne

/-- No name of `Object.prototype` is `undefined` in upper case. -/
theorem toUpperCase_objectPrototype {name : String} (h : name ∈ objectPrototype) :
    u.toUpperCase name ≠ "undefined" := by
  simp only [objectPrototype, List.mem_cons, List.not_mem_nil, or_false] at h
  rcases h with rfl | rfl | rfl | rfl | rfl | rfl | rfl | rfl | rfl | rfl | rfl | rfl <;>
    exact toUpperCase_ne (by decide) (by decide)

/-- **A coin is shown with its own denom** iff what is found under the denom is not inherited. -/
theorem showAmount_iff : showAmount u J coin.amount (some coin.denom) denomsMetadata =
    showCoin u J denomsMetadata coin ↔ NotInherited denomsMetadata coin.denom := by
  obtain ⟨text, htext⟩ := exists_amountText J coin
  unfold showAmount showCoin NotInherited
  rw [Option.bind_some]
  cases hlookup : denomsMetadata.lookup coin.denom with
  | some metadata =>
    have hmem : coin.denom ∈ denomsMetadata := by
      rw [← AList.lookup_isSome, hlookup]
      rfl
    rw [getProperty_of_lookup hlookup]
    exact iff_of_true rfl (.inl hmem)
  | none =>
    have hnotMem : coin.denom ∉ denomsMetadata := AList.lookup_eq_none.1 hlookup
    by_cases hname : coin.denom ∈ objectPrototype
    · rw [getProperty_of_inherited hlookup hname]
      refine iff_of_false ?_ (not_or.2 ⟨hnotMem, not_not_intro hname⟩)
      dsimp only [Property.field]
      rw [htext]
      intro h
      have happend : text ++ " " ++ "undefined" = text ++ " " ++ u.toUpperCase coin.denom :=
        Option.some.inj h
      exact toUpperCase_objectPrototype hname (String.append_right_inj _ |>.1 happend).symm
    · rw [getProperty_of_none hlookup hname]
      refine iff_of_true ?_ (.inr hname)
      dsimp only
      rw [htext]
      exact congrArg some (String.append_assoc ..).symm

theorem getDenom_single (hlower : ∀ c ∈ coin.denom.toList, c.isLower = true) :
    getDenom (String.ofList (coinsText [coin])) = some coin.denom := by
  rw [getDenom_coinsText [coin] (List.cons_ne_nil _ _), List.getLast_singleton,
    lowerEnding_eq_self_iff.2 hlower, if_neg (denom_ne_empty coin)]

/-- If the denom of the first coin is found, then that coin is shown. -/
theorem formatRpcAmount_first
    (hfound : getDenom (String.ofList (coinsText (coin :: coins))) = some coin.denom) :
    formatRpcAmount u J (String.ofList (coinsText (coin :: coins))) denomsMetadata =
      showCoin u J denomsMetadata coin ↔ NotInherited denomsMetadata coin.denom := by
  rw [formatRpcAmount, getAmount_coinsText, hfound]
  exact showAmount_iff

/-- **Amounts are shown with their own denoms** iff a single denom has only letters from `a` to `z`,
    and the last denom of a list ends with none of them or with exactly the first denom; and what
    the object of metadata has under the denom is not inherited. -/
theorem showsOwnDenom_iff (u : CaseMapping) (J : BigJs)
    (denomsMetadata : Map String DenomMetadata) (coins : List CoinText) :
    ShowsOwnDenom u J denomsMetadata coins ↔ DenomsFound denomsMetadata coins := by
  match coins with
  | [] => exact Iff.rfl
  | [coin] =>
    have hamount := getAmount_coinsText coin []
    constructor
    · rintro ⟨-, hfound, hshow⟩
      have hown := (formatRpcAmount_first hfound).1 hshow
      refine ⟨lowerEnding_eq_self_iff.1 ?_, hown⟩
      rw [getDenom_coinsText [coin] (List.cons_ne_nil _ _), List.getLast_singleton] at hfound
      split_ifs at hfound
      exact Option.some.inj hfound
    · rintro ⟨hlower, hown⟩
      have hfound := getDenom_single hlower
      exact ⟨hamount, hfound, (formatRpcAmount_first hfound).2 hown⟩
  | first :: second :: rest =>
    have hamount := getAmount_coinsText first (second :: rest)
    have hdenom := getDenom_coinsText (first :: second :: rest) (List.cons_ne_nil _ _)
    rw [List.getLast_cons (List.cons_ne_nil _ _)] at hdenom
    constructor
    · rintro ⟨-, hown⟩
      by_cases hempty : lowerEnding ((second :: rest).getLast (List.cons_ne_nil _ _)).denom = ""
      · exact .inl hempty
      · rw [if_neg hempty] at hdenom
        obtain ⟨hfirst, hshow⟩ := hown _ hdenom
        rw [hfirst] at hdenom
        exact .inr ⟨hfirst, (formatRpcAmount_first hdenom).1 hshow⟩
    · rintro (hempty | ⟨hfirst, hown⟩)
      · refine ⟨hamount, fun denom h => ?_⟩
        rw [hdenom, if_pos hempty] at h
        cases h
      · rw [hfirst, if_neg (denom_ne_empty first)] at hdenom
        refine ⟨hamount, fun denom h => ?_⟩
        rw [hdenom] at h
        exact ⟨(Option.some.inj h).symm, (formatRpcAmount_first hdenom).2 hown⟩

/-- **A single coin is shown exactly**: the amount in units of the exponent of its denom, with the
    symbol. -/
theorem formatRpcAmount_coin (coin : CoinText) (hlower : ∀ c ∈ coin.denom.toList, c.isLower = true)
    {metadata : DenomMetadata} (hmetadata : denomsMetadata.lookup coin.denom = some metadata)
    (hexponent : metadata.highestExponent ≤ 20) :
    ∃ text, Displays text (readDigits 10 coin.amount.toList / 10 ^ metadata.highestExponent) ∧
      formatRpcAmount u J (String.ofList (coinsText [coin])) denomsMetadata =
        some (text ++ " " ++ metadata.symbol) := by
  obtain ⟨text, hformat, hdisplays⟩ :=
    formatBlockchainAmount_displays (J := J) coin.amount_digits hexponent
  have hmem : coin.denom ∈ denomsMetadata := by
    rw [← AList.lookup_isSome, hmetadata]
    rfl
  refine ⟨text, hdisplays, ?_⟩
  rw [(formatRpcAmount_first (getDenom_single hlower)).2 (.inl hmem), showCoin, hmetadata]
  dsimp only
  rw [hformat]
  rfl

/-! ## Three texts -/

/-- A coin of another chain. -/
def ibcCoin : CoinText where
  amount := "5"
  denom := "ibc/27394FB092D2ECCD56123C74F36E4C1F926001CEADA9CA97EA622B25F41E5EB2"
  amount_digits := by decide +kernel
  denom_valid := by decide +kernel

def adymCoin : CoinText where
  amount := "1"
  denom := "adym"
  amount_digits := by decide +kernel
  denom_valid := by decide +kernel

def uatomCoin : CoinText where
  amount := "2"
  denom := "uatom"
  amount_digits := by decide +kernel
  denom_valid := by decide +kernel

def constructorCoin : CoinText where
  amount := "5"
  denom := "constructor"
  amount_digits := by decide +kernel
  denom_valid := by decide +kernel

/-- **The denom may be lost, or that of another coin**: `ibc/…` is not found, of the list
    `1adym,2uatom` the amount of the first coin is shown with the denom of the second, and
    `5constructor` is shown as `5 undefined`. -/
theorem showsOwnDenom_counterexample :
    ¬ ShowsOwnDenom default default ∅ [ibcCoin] ∧
      ¬ ShowsOwnDenom default default ∅ [adymCoin, uatomCoin] ∧
      ¬ ShowsOwnDenom default default ∅ [constructorCoin] ∧
      formatRpcAmount default default "5constructor" ∅ = some "5 undefined" := by
  refine ⟨?_, ?_, ?_, by decide +kernel⟩
  · rintro ⟨-, hfound, -⟩
    exact absurd hfound (by decide +kernel)
  · rintro ⟨-, hown⟩
    have hdenom : getDenom (String.ofList (coinsText [adymCoin, uatomCoin])) = some "uatom" := by
      decide +kernel
    exact absurd (hown _ hdenom).1 (by decide +kernel)
  · rintro ⟨-, -, hshow⟩
    exact absurd hshow (by decide +kernel)

end RollappExplorer
