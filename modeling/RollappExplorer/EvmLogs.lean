/-
  Transfers and approvals among the logs of an EVM transaction (`utils/transaction.ts`).

  * `translateEvmLogIfPossible`: the sender, the receiver and the amount of a log; the amount is
    scaled by the decimals of the contract that emits the log;
  * `AmountDeclared`: the amount is scaled by the decimals, or raw if there are none;
  * `amountDeclared_iff`: this is so iff the decimals are not zero.
-/
import RollappExplorer.Js.Collections
import RollappExplorer.Numbers

namespace RollappExplorer

open Js Text

/-! ## `translateEvmLogIfPossible` -/

/-- `EventTopicType.TRANSFER` -/
def topicTransfer : String := "0xddf252ad1be2c89b69c2b068fc378daa952ba7f163c4a11628f55a4df523b3ef"

/-- `EventTopicType.APPROVAL` -/
def topicApproval : String := "0x8c5be1e5ebec7d5bd14f71427d1e84f3dd0314c0f7b2291e5b200ac8c7c3b925"

inductive TranslateType where
  | erc20Transfer
  | erc20Approval
  deriving DecidableEq

/-- The decimals are undefined in the object of an error, which is kept like an info. -/
structure Erc20ContractInfo where
  decimals : Option ℕ

structure TranslatedLog where
  type : TranslateType
  action : String
  sender : String
  receiver : String
  amount : String
  isRawAmount : Bool
  deriving DecidableEq

def isTopicEvmAddress (topic : String) : Bool :=
  "0x000000000000000000000000".toList.isPrefixOf topic.toList

/-- A topic behind the zeros of an address. -/
def topicAddress (topic : String) : String := "0x" ++ String.ofList (topic.toList.drop 26)

/-- `contractAddressToErc20ContractInfo?.get(emitter)?.decimals` -/
def emitterDecimals (contractAddressToErc20ContractInfo : Option (Map String Erc20ContractInfo))
    (emitter : String) : Option ℕ :=
  ((contractAddressToErc20ContractInfo.bind fun infos => infos.lookup emitter)).bind
    Erc20ContractInfo.decimals

/-- `erc20ContractInfo && decimals ? divideAmountByDecimals(…).toString() : data` -/
def translatedAmount (J : BigJs) (data : String) (decimals : Option ℕ) : Option String :=
  match decimals with
  | none | some 0 => some data
  | some decimals => do
    let amount ← divideAmountByDecimals J (.inr (← hexToDec data)) decimals
    return J.toString amount

/-- The log of a transfer or an approval. -/
def translateLog (J : BigJs) (type : TranslateType) (action : String) (topic₁ topic₂ data : String)
    (decimals : Option ℕ) : Option TranslatedLog := do
  let amount ← translatedAmount J data decimals
  return {
    type := type
    action := action
    sender := topicAddress topic₁
    receiver := topicAddress topic₂
    amount := amount
    isRawAmount := decimals.isNone }

/-- The result is `some none` if the log is not translated, and `none` if an error is thrown. -/
def translateEvmLogIfPossible (J : BigJs) (topics : List String) (data emitter : String)
    (contractAddressToErc20ContractInfo : Option (Map String Erc20ContractInfo)) :
    Option (Option TranslatedLog) :=
  match topics with
  | [topic₀, topic₁, topic₂] =>
    let decimals := emitterDecimals contractAddressToErc20ContractInfo emitter
    if topic₀ = topicTransfer ∧ isTopicEvmAddress topic₁ ∧ isTopicEvmAddress topic₂ ∧
        length data = 66 then
      (translateLog J .erc20Transfer "Transfer (ERC-20)" topic₁ topic₂ data decimals).map some
    else if topic₀ = topicApproval ∧ isTopicEvmAddress topic₁ ∧ isTopicEvmAddress topic₂ ∧
        length data = 66 then
      (translateLog J .erc20Approval "Approve (ERC-20)" topic₁ topic₂ data decimals).map some
    else some none
  | _ => some none

/-! ## Amounts -/

/-- The data is a word of 32 bytes, with the value `v`. -/
def IsWord (data : String) (v : ℕ) : Prop :=
  ∃ l, data.toList = '0' :: 'x' :: l ∧ l.length = 64 ∧ (∀ c ∈ l, isHexDigit c = true) ∧
    readDigits 16 l = v

/-- The amount is that of the data in units of the decimals, or the data itself if there are no
    decimals, and is declared to be so. -/
def AmountDeclared (decimals : Option ℕ) (data : String) (v : ℕ) (log : TranslatedLog) : Prop :=
  match decimals with
  | some d => (d ≤ 20 → ∃ n : Numeral, n.Canonical ∧ n.value = v / 10 ^ d ∧ log.amount = n.text) ∧
      log.isRawAmount = false
  | none => log.amount = data ∧ log.isRawAmount = true

variable {J : BigJs} {topics : List String} {data emitter : String} {v : ℕ}
  {infos : Option (Map String Erc20ContractInfo)} {log : TranslatedLog} {decimals : Option ℕ}

/-- A translated log has the amount of its data, and is raw iff there are no decimals. -/
theorem translateEvmLogIfPossible_eq
    (h : translateEvmLogIfPossible J topics data emitter infos = some (some log)) :
    translatedAmount J data (emitterDecimals infos emitter) = some log.amount ∧
      log.isRawAmount = (emitterDecimals infos emitter).isNone := by
  have hlog : ∀ {type : TranslateType} {action topic₁ topic₂ : String},
      (translateLog J type action topic₁ topic₂ data (emitterDecimals infos emitter)).map some =
        some (some log) →
      translatedAmount J data (emitterDecimals infos emitter) = some log.amount ∧
        log.isRawAmount = (emitterDecimals infos emitter).isNone := by
    intro type action topic₁ topic₂ hlog
    unfold translateLog at hlog
    cases hamount : translatedAmount J data (emitterDecimals infos emitter) with
    | none =>
      rw [hamount] at hlog
      cases hlog
    | some amount =>
      rw [hamount] at hlog
      obtain rfl := Option.some.inj (Option.some.inj hlog)
      exact ⟨rfl, rfl⟩
  unfold translateEvmLogIfPossible at h
  split at h
  · dsimp only at h
    split_ifs at h
    · exact hlog h
    · exact hlog h
    · cases h
  · cases h

theorem isDigits_ofNat (n : ℕ) : isDigits (toString (n : ℤ)) = true := isDigits_toString n

theorem length_word (h : IsWord data v) : length data = 66 := by
  obtain ⟨l, hdata, hlen, hhex, -⟩ := h
  rw [length_eq, hdata, List.length_cons, List.length_cons, hlen]
  intro c hc
  rw [hdata] at hc
  rcases List.mem_cons.1 hc with rfl | hc
  · decide
  · rcases List.mem_cons.1 hc with rfl | hc
    · decide
    · exact (isHexDigit_lt (hhex c hc)).trans (by decide)

/-- The decimal digits of a word. -/
theorem hexToDec_word (h : IsWord data v) : hexToDec data = some (toString (v : ℤ)) := by
  have heven : ¬ length data % 2 ≠ 0 := by
    rw [length_word h]
    decide
  obtain ⟨l, hdata, hlen, hhex, rfl⟩ := h
  have hne : l ≠ [] := List.ne_nil_of_length_pos (by rw [hlen]; decide)
  unfold hexToDec
  rw [if_neg heven]
  show (toBigInt data).map toString = _
  rw [toBigInt_hex hdata hne hhex]
  rfl

/-- **A scaled amount** is the numeral of the value of the word in units of the decimals. -/
theorem translatedAmount_word (h : IsWord data v) {d : ℕ} (hd : d ≤ 20) (hpos : d ≠ 0) :
    ∃ n : Numeral, n.Canonical ∧ n.value = v / 10 ^ d ∧
      translatedAmount J data (some d) = some n.text := by
  obtain ⟨b, hdiv, hval⟩ := divideAmountByDecimals_eq (J := J) (isDigits_ofNat v) hd
  obtain ⟨n, hcanonical, htext, hvalue⟩ := J.toString_eq b
  have hread : readDigits 10 (toString (v : ℤ)).toList = v := readDigits_toString v
  refine ⟨n, hcanonical, by rw [hvalue, hval, hread], ?_⟩
  unfold translatedAmount
  split
  · next h => cases h
  · next h => exact absurd (Option.some.inj h) hpos
  · next d' _ hd' =>
    obtain rfl := Option.some.inj hd'
    show ((hexToDec data).bind fun dec => (divideAmountByDecimals J (.inr dec) d).bind _) = _
    rw [hexToDec_word h, Option.bind_some, hdiv, ← htext]
    rfl

/-- **Transfers and approvals are translated**, up to 20 decimals. -/
theorem exists_translated {topic₀ topic₁ topic₂ : String}
    (h₀ : topic₀ = topicTransfer ∨ topic₀ = topicApproval)
    (h₁ : isTopicEvmAddress topic₁ = true) (h₂ : isTopicEvmAddress topic₂ = true)
    (h : IsWord data v) (hd : ∀ d ∈ emitterDecimals infos emitter, d ≤ 20) :
    ∃ log, translateEvmLogIfPossible J [topic₀, topic₁, topic₂] data emitter infos =
      some (some log) := by
  have hamount : ∃ amount, translatedAmount J data (emitterDecimals infos emitter) =
      some amount := by
    cases hdecimals : emitterDecimals infos emitter with
    | none => exact ⟨data, rfl⟩
    | some d =>
      by_cases hzero : d = 0
      · subst hzero
        exact ⟨data, rfl⟩
      · obtain ⟨n, -, -, htext⟩ := translatedAmount_word (J := J) h (hd d hdecimals) hzero
        exact ⟨_, htext⟩
  obtain ⟨amount, hamount⟩ := hamount
  have hlen := length_word h
  unfold translateEvmLogIfPossible translateLog
  dsimp only
  rw [hamount]
  by_cases htransfer : topic₀ = topicTransfer
  · rw [if_pos ⟨htransfer, h₁, h₂, hlen⟩]
    exact ⟨_, rfl⟩
  · rw [if_neg fun h => htransfer h.1, if_pos ⟨h₀.resolve_left htransfer, h₁, h₂, hlen⟩]
    exact ⟨_, rfl⟩

/-- A word is no numeral. -/
theorem word_ne_text (h : IsWord data v) (n : Numeral) : data ≠ n.text := by
  obtain ⟨l, hdata, -⟩ := h
  rintro rfl
  have hx : 'x' ∈ n.text.toList := by
    rw [hdata]
    exact List.mem_cons_of_mem _ List.mem_cons_self
  rcases Numeral.mem_text hx with hx | hx | hx
  · exact absurd hx (by decide)
  · exact absurd hx (by decide)
  · exact absurd hx (by decide)

/-- Decimals that are zero count as none for the amount, but not for the declaration. -/
theorem not_amountDeclared_zero (h : IsWord data v) (hamount : log.amount = data) :
    ¬ AmountDeclared (some 0) data v log := by
  rintro ⟨hscaled, -⟩
  obtain ⟨n, -, -, htext⟩ := hscaled (by decide)
  exact word_ne_text h n (hamount ▸ htext)

/-- **Amounts are scaled or declared raw** iff the decimals of the emitter are not zero: of a
    log that is translated, the amount is the value of the data word in units of the decimals, or
    the word itself if the decimals are not known. -/
theorem amountDeclared_iff (hdata : IsWord data v)
    (h : translateEvmLogIfPossible J topics data emitter infos = some (some log)) :
    AmountDeclared (emitterDecimals infos emitter) data v log ↔
      emitterDecimals infos emitter ≠ some 0 := by
  obtain ⟨hamount, hraw⟩ := translateEvmLogIfPossible_eq h
  cases hd : emitterDecimals infos emitter with
  | none =>
    rw [hd] at hamount hraw
    exact iff_of_true ⟨(Option.some.inj hamount).symm, hraw⟩ nofun
  | some d =>
    rw [hd] at hamount hraw
    by_cases hzero : d = 0
    · subst hzero
      exact iff_of_false (not_amountDeclared_zero hdata (Option.some.inj hamount).symm)
        fun hne => hne rfl
    · refine iff_of_true ⟨fun hle => ?_, hraw⟩ fun he => hzero (Option.some.inj he)
      obtain ⟨n, hcanonical, hvalue, htext⟩ := translatedAmount_word (J := J) hdata hle hzero
      rw [htext] at hamount
      exact ⟨n, hcanonical, hvalue, (Option.some.inj hamount).symm⟩

/-! ## A transfer -/

/-- A transfer between two addresses. -/
def transferTopics : List String :=
  [topicTransfer, "0x0000000000000000000000001111111111111111111111111111111111111111",
    "0x0000000000000000000000002222222222222222222222222222222222222222"]

/-- 1500000 -/
def transferData : String := "0x000000000000000000000000000000000000000000000000000000000016e360"

/-- The infos of one contract, with its decimals. -/
def infosOf (decimals : ℕ) : Map String Erc20ContractInfo :=
  AList.insert "0xc" ⟨some decimals⟩ ∅

theorem isWord_transferData : IsWord transferData 1500000 :=
  ⟨transferData.toList.drop 2, by decide +kernel, by decide +kernel,
    List.all_eq_true.1 (by decide +kernel), by decide +kernel⟩

theorem exists_translated_transfer (decimals : ℕ) (hd : decimals ≤ 20) :
    emitterDecimals (some (infosOf decimals)) "0xc" = some decimals ∧
      ∃ log, translateEvmLogIfPossible default transferTopics transferData "0xc"
        (some (infosOf decimals)) = some (some log) := by
  have hdecimals : emitterDecimals (some (infosOf decimals)) "0xc" = some decimals := by
    rw [emitterDecimals, Option.bind_some, infosOf, AList.lookup_insert]
    rfl
  refine ⟨hdecimals, exists_translated (.inl rfl) (by decide +kernel) (by decide +kernel)
    isWord_transferData ?_⟩
  rw [hdecimals]
  intro d hmem
  exact Option.some.inj hmem ▸ hd

/-- With six decimals the amount is 1.5. -/
theorem amountDeclared_six : ∃ log,
    translateEvmLogIfPossible default transferTopics transferData "0xc" (some (infosOf 6)) =
      some (some log) ∧ AmountDeclared (some 6) transferData 1500000 log := by
  obtain ⟨hdecimals, log, hlog⟩ := exists_translated_transfer 6 (by decide)
  refine ⟨log, hlog, ?_⟩
  rw [← hdecimals]
  refine (amountDeclared_iff isWord_transferData hlog).2 ?_
  rw [hdecimals]
  decide

/-- **Amounts may be raw and not declared so**: with no decimals, the word is shown as an amount
    in units of the token. -/
theorem amountDeclared_counterexample :
    ¬ ∀ (J : BigJs) (topics : List String) (data emitter : String) (v : ℕ)
      (infos : Option (Map String Erc20ContractInfo)) (log : TranslatedLog), IsWord data v →
      translateEvmLogIfPossible J topics data emitter infos = some (some log) →
      AmountDeclared (emitterDecimals infos emitter) data v log := by
  intro h
  obtain ⟨hdecimals, log, hlog⟩ := exists_translated_transfer 0 (by decide)
  obtain ⟨hamount, -⟩ := translateEvmLogIfPossible_eq hlog
  have hdeclared := h _ _ _ _ _ _ log isWord_transferData hlog
  rw [hdecimals] at hamount hdeclared
  exact not_amountDeclared_zero isWord_transferData (Option.some.inj hamount).symm hdeclared

end RollappExplorer
