/-
  Failures of the conversion of an address.

  The conversion wraps `err` where it means `errBech32ify`, so that a failure is no error, and the
  address becomes the empty one.

  * `unsafeAnyAddressToBech32AddressResults`: the conversion with its named results;
  * `LookedAt`: the addresses of a block that are converted;
  * `conversionFailures_reported_iff`: the conversion has exactly one result unless it fails, and
    `insertBlockInformation` reports failures iff there are none.
-/
import RollappExplorer.Bech32
import RollappExplorer.InvolvedAccounts
import RollappExplorer.Scenario

namespace RollappExplorer

open Go Effect

/-! ## The results of a conversion -/

/-- `errors.Wrapf`, which returns nil for nil. -/
def wrapf (err : Option Error) (msg : String) : Option Error := err.map fun err => wrap err msg

/-- The named results of `unsafeAnyAddressToBech32Address`. -/
structure AddressResults where
  absolutelyInvalid : Bool
  unsafeBech32Address : String
  err : Option Error

/-- `unsafeAnyAddressToBech32Address` -/
def unsafeAnyAddressToBech32AddressResults (sdk : Sdk) (involver : String)
    (bech32Cfg : Bech32PrefixOfChainInfo) : AddressResults :=
  let r : AddressResults := ⟨false, "", none⟩
  let normalizedAddress := normalizeAddress involver
  if isEvmAddress normalizedAddress then
    match sdk.bech32ifyAddressBytes bech32Cfg.bech32PrefixAccAddr
        (hexToAddress normalizedAddress) with
    | .error _ => { r with err := wrapf r.err s!"failed to bech32ify address {normalizedAddress}" }
    | .ok bech32Address => { r with unsafeBech32Address := normalizeAddress bech32Address }
  else if (unsafeExtractBech32Hrp normalizedAddress).2 then
    { r with unsafeBech32Address := normalizedAddress }
  else { r with absolutelyInvalid := true }

/-- How the callers read the results. -/
def AddressResults.outcome (r : AddressResults) : Except Error (Option String) :=
  match r.err with
  | some err => .error err
  | none => if r.absolutelyInvalid then .ok none else .ok (some r.unsafeBech32Address)

/-- Exactly one of an error, an absolutely invalid address and a normalised address. -/
def AddressResults.ExactlyOne (r : AddressResults) : Prop :=
  (r.err ≠ none ∧ r.absolutelyInvalid = false ∧ ¬ StoredAddress r.unsafeBech32Address) ∨
    (r.err = none ∧ r.absolutelyInvalid = true ∧ ¬ StoredAddress r.unsafeBech32Address) ∨
    (r.err = none ∧ r.absolutelyInvalid = false ∧ StoredAddress r.unsafeBech32Address)

section
variable {sdk : Sdk} {bech32Cfg : Bech32PrefixOfChainInfo} {involver : String}

theorem outcome_results : (unsafeAnyAddressToBech32AddressResults sdk involver bech32Cfg).outcome =
    unsafeAnyAddressToBech32Address sdk involver bech32Cfg := by
  unfold unsafeAnyAddressToBech32AddressResults unsafeAnyAddressToBech32Address
  dsimp only
  split_ifs with hevm hhrp
  · cases sdk.bech32ifyAddressBytes bech32Cfg.bech32PrefixAccAddr
        (hexToAddress (normalizeAddress involver)) with
    | error e => rfl
    | ok bech32Address => rfl
  · rfl
  · rfl

theorem exactlyOne_results_iff :
    (unsafeAnyAddressToBech32AddressResults sdk involver bech32Cfg).ExactlyOne ↔
      (isEvmAddress (normalizeAddress involver) = true →
        ∃ bech32Address, sdk.bech32ifyAddressBytes bech32Cfg.bech32PrefixAccAddr
          (hexToAddress (normalizeAddress involver)) = .ok bech32Address ∧
            normalizeAddress bech32Address ≠ "") := by
  have hempty : ¬ StoredAddress "" := fun h => h.2 rfl
  unfold unsafeAnyAddressToBech32AddressResults AddressResults.ExactlyOne
  dsimp only
  split_ifs with hevm hhrp
  · cases sdk.bech32ifyAddressBytes bech32Cfg.bech32PrefixAccAddr
        (hexToAddress (normalizeAddress involver)) with
    | error e => simp [wrapf, hempty, hevm]
    | ok bech32Address => simp [hevm, StoredAddress, normalizeAddress_idem]
  · have hne : normalizeAddress involver ≠ "" := fun he => by
      rw [he] at hhrp
      exact absurd hhrp (by decide)
    simp [hevm, StoredAddress, normalizeAddress_idem, hne]
  · simp [hevm, hempty]

end

/-! ## The addresses that are converted -/

section
variable (sdk : Sdk) (bech32Cfg : Bech32PrefixOfChainInfo)

/-- The conversion of the address fails. -/
structure ConversionFails (addr : String) (e : Error) : Prop where
  evm : isEvmAddress (normalizeAddress addr) = true
  failed : sdk.bech32ifyAddressBytes bech32Cfg.bech32PrefixAccAddr
    (hexToAddress (normalizeAddress addr)) = .error e

/-- The involvers, the token contracts that have involvers, and the involvers of contracts that are
    not absolutely invalid. -/
inductive InvolversInTransaction.LookedAt (ivs : InvolversInTransaction) : String → Prop
  | involver {addr : String} : addr ∈ ivs.signers ++ ivs.erc20 ++ ivs.nft ++ ivs.others →
      LookedAt ivs addr
  | contract {contracts : Map String (List String)} {contract : String}
      {involvers : List String} : contracts ∈ [ivs.tokenContracts.erc20, ivs.tokenContracts.nft] →
      contracts.lookup contract = some involvers → involvers ≠ [] → LookedAt ivs contract
  | contractInvolver {contracts : Map String (List String)} {contract addr : String}
      {involvers : List String} : contracts ∈ [ivs.tokenContracts.erc20, ivs.tokenContracts.nft] →
      contracts.lookup contract = some involvers → possibleAddress contract = true →
      addr ∈ involvers → LookedAt ivs addr

/-- The addresses of the transactions up to the first one whose value cannot be parsed. -/
inductive BlockInResponse.LookedAt (block : BlockInResponse) : String → Prop
  | transaction {before after : List TransactionInBlock} {tx : TransactionInBlock}
      {addr : String} : block.transactions = before ++ tx :: after →
      (∀ t ∈ before ++ [tx], ∃ value, getTxValueFromTx sdk t = .ok value) →
      tx.involvers.LookedAt addr → LookedAt block addr

end

/-- The errors that describe a failed conversion. -/
def conversionErrors (addr : String) (e : Error) : List Error :=
  let err := wrap e s!"failed to bech32ify address {normalizeAddress addr}"
  [wrap err s!"failed to convert involver address {addr} to bech32 address",
    wrap err s!"failed to check contract address {addr} by converting to bech32 address"]

/-- If a conversion fails, `insertBlockInformation` has ranged over its maps and then returned an
    error that describes a failure, before any statement. -/
def ReportsFailures {R : Type} (d : Indexer R) (o : MapOrder) (height : ℤ)
    (block : BlockInResponse) : Prop :=
  (∃ addr e, block.LookedAt d.sdk addr ∧ ConversionFails d.sdk d.bech32Cfg addr e) →
    ∃ addr e, block.LookedAt d.sdk addr ∧ ConversionFails d.sdk d.bech32Cfg addr e ∧
      ∃ err ∈ conversionErrors addr e, ∃ k : MapOrder → Prog sig (Except Error Unit),
        insertBlockInformation d height block = .call .mapOrder k ∧ k o = .ret (.error err)

/-! ## The errors that are returned -/

/-- The text begins with `head`. -/
def Begins (head s : String) : Prop := head.toList <+: s.toList

theorem Begins.append {head s : String} (h : Begins head s) (s' : String) :
    Begins head (s ++ s') := by
  unfold Begins
  rw [String.toList_append]
  exact h.trans (List.prefix_append _ _)

theorem Begins.wrap {head msg : String} (h : Begins head msg) (e : Error) :
    Begins head (wrap e msg) := (h.append ": ").append e

/-- A text does not begin with two texts of one length. -/
theorem Begins.not_begins {head head' s : String} (h : Begins head s)
    (hlength : head.toList.length = head'.toList.length) (hne : head.toList ≠ head'.toList) :
    ¬ Begins head' s := fun h' =>
  hne ((List.prefix_of_prefix_length_le h h' hlength.le).eq_of_length hlength)

theorem begins_conversionErrors {addr : String} {e err : Error}
    (h : err ∈ conversionErrors addr e) : Begins "failed to c" err := by
  rcases List.mem_pair.1 h with rfl | rfl
  · have hhead : Begins "failed to c" "failed to convert involver address " := by
      unfold Begins
      decide
    exact ((hhead.append _).append _).wrap _
  · have hhead : Begins "failed to c" "failed to check contract address " := by
      unfold Begins
      decide
    exact ((hhead.append _).append _).wrap _

section
variable {sdk : Sdk} {o : MapOrder} {chainId : String} {bech32Cfg : Bech32PrefixOfChainInfo}
  {height : ℤ} {block : BlockInResponse}

theorem blockInformation_error {err : Error}
    (he : blockInformation sdk o chainId bech32Cfg height block = .error err) :
    Begins "failed to p" err := by
  obtain ⟨entry, -, r, hstep⟩ := foldlM_error he
  have hhead : Begins "failed to p" "failed to parse coins from value " := by
    unfold Begins
    decide
  cases hvalue : getTxValueFromTx sdk entry.1 with
  | error e =>
    rw [transactionInformation, hvalue] at hstep
    obtain rfl := Except.error.inj hstep
    exact (hhead.append _).wrap e
  | ok value =>
    have htotal : ∃ r', transactionInformation sdk o chainId bech32Cfg height block r entry =
        .ok r' := (transactionInformation_ok_iff r).2 ⟨value, hvalue⟩
    obtain ⟨r', hok⟩ := htotal
    cases hok.symm.trans hstep

end

theorem orReturn_error {α β : Type} {p : Prog sig (Except Error α)}
    {f : α → Prog sig (Except Error β)} {err : Error}
    (h : orReturn p f = .ret (.error err)) :
    p = .ret (.error err) ∨ ∃ a, f a = .ret (.error err) := by
  cases p with
  | panic msg => cases h
  | call c k => cases h
  | ret r =>
    cases r with
    | error e =>
      obtain rfl := Except.error.inj (Prog.ret.inj h)
      exact .inl rfl
    | ok a => exact .inr ⟨a, h⟩

theorem wrapping_error {α : Type} {msg : String} {p : Prog sig (Except Error α)} {err : Error}
    (h : wrapping msg p = .ret (.error err)) : ∃ e, err = wrap e msg := by
  cases p with
  | panic msg => cases h
  | call c k => cases h
  | ret r =>
    cases r with
    | error e => exact ⟨e, (Except.error.inj (Prog.ret.inj h)).symm⟩
    | ok a => cases h

/-- An error that is returned before any statement is not one of a conversion. -/
theorem insertBlockInformation_error {R : Type} {d : Indexer R} {o : MapOrder} {height : ℤ}
    {block : BlockInResponse} {k : MapOrder → Prog sig (Except Error Unit)} {err : Error}
    (h : insertBlockInformation d height block = .call .mapOrder k) (he : k o = .ret (.error err)) :
    ¬ Begins "failed to c" err := by
  have hinsert : ∀ {msg : String} {p : Prog sig (Except Error Unit)}, Begins "failed to i" msg →
      wrapping msg p = .ret (.error err) → ¬ Begins "failed to c" err := by
    intro msg p hmsg hp
    obtain ⟨e, rfl⟩ := wrapping_error hp
    exact (hmsg.wrap e).not_begins (by decide) (by decide)
  cases h
  cases hinfo : blockInformation d.sdk o d.chainId d.bech32Cfg height block with
  | error e =>
    simp only [Prog.bind, hinfo] at he
    obtain rfl : e = err := Except.error.inj (Prog.ret.inj he)
    exact (blockInformation_error hinfo).not_begins (by decide) (by decide)
  | ok records =>
    simp only [Prog.bind, hinfo] at he
    rcases orReturn_error he with he | ⟨-, he⟩
    · exact hinsert (by unfold Begins; decide) he
    rcases orReturn_error he with he | ⟨-, he⟩
    · exact hinsert (by unfold Begins; decide) he
    rcases orReturn_error he with he | ⟨-, he⟩
    · exact hinsert (by unfold Begins; decide) he
    · exact hinsert (by unfold Begins; decide) he

/-! ## Failures -/

/-- **Failures of conversions.** A conversion, as its callers read its results, has exactly one of
    them iff it does not fail on a `0x` address (or yield a blank one), and
    `insertBlockInformation` reports the failures of a block iff it has none. -/
theorem conversionFailures_reported_iff {R : Type} (d : Indexer R) (o : MapOrder) (height : ℤ)
    (block : BlockInResponse) :
    (∀ involver, (unsafeAnyAddressToBech32AddressResults d.sdk involver d.bech32Cfg).outcome =
      unsafeAnyAddressToBech32Address d.sdk involver d.bech32Cfg) ∧
    (∀ involver, (unsafeAnyAddressToBech32AddressResults d.sdk involver d.bech32Cfg).ExactlyOne ↔
      (isEvmAddress (normalizeAddress involver) = true →
        ∃ bech32Address, d.sdk.bech32ifyAddressBytes d.bech32Cfg.bech32PrefixAccAddr
          (hexToAddress (normalizeAddress involver)) = .ok bech32Address ∧
            normalizeAddress bech32Address ≠ "")) ∧
    (ReportsFailures d o height block ↔
      ∀ addr e, block.LookedAt d.sdk addr → ¬ ConversionFails d.sdk d.bech32Cfg addr e) := by
  refine ⟨fun involver => outcome_results, fun involver => exactlyOne_results_iff, ?_⟩
  constructor
  · intro hreports addr e hlooked hfails
    obtain ⟨addr', e', -, -, err, herr, k, hk, he⟩ := hreports ⟨addr, e, hlooked, hfails⟩
    exact insertBlockInformation_error hk he (begins_conversionErrors herr)
  · rintro hnone ⟨addr, e, hlooked, hfails⟩
    exact absurd hfails (hnone addr e hlooked)

/-- A Cosmos SDK that refuses the empty prefix. -/
def prefixSdk : Sdk where
  bech32ifyAddressBytes hrp bytes :=
    if hrp = "" then .error "prefix cannot be empty" else .ok (Bech32.encode hrp bytes)
  parseCoinsNormalized _ := .ok []

/-- An indexer without an account prefix. -/
def prefixlessIndexer : Indexer Unit :=
  { sampleIndexer false with sdk := prefixSdk, bech32Cfg := ⟨"", "rolvalcons", "rolvaloper"⟩ }

def zeroEvmAddress : String := "0x0000000000000000000000000000000000000000"

def blockOfEvmAddress : BlockInResponse where
  height := 7
  timeEpochUTC := 1720000000
  transactions := [{
    transactionHash := String.ofList (List.replicate 64 'A')
    involvers := ⟨[zeroEvmAddress], [], [], [], ⟨∅, ∅⟩⟩
    messagesType := ["/cosmos.bank.v1beta1.MsgSend"]
    transactionType := "cosmos"
    evmTxInfo := none
    wasmTxInfo := none
    value := "" }]

/-- The failure of the only address of a block is not reported. -/
theorem not_conversionFailures_reported :
    ¬ (unsafeAnyAddressToBech32AddressResults prefixSdk zeroEvmAddress
        ⟨"", "rolvalcons", "rolvaloper"⟩).ExactlyOne ∧
      ¬ ReportsFailures prefixlessIndexer default 7 blockOfEvmAddress := by
  have hfails : ConversionFails prefixSdk ⟨"", "rolvalcons", "rolvaloper"⟩ zeroEvmAddress
      "prefix cannot be empty" := ⟨by decide, rfl⟩
  have hlooked : blockOfEvmAddress.LookedAt prefixSdk zeroEvmAddress :=
    .transaction (show blockOfEvmAddress.transactions = [] ++ _ :: [] from rfl)
      (fun t ht => ⟨[], by
        rw [List.mem_singleton.1 ht]
        rfl⟩) (.involver List.mem_cons_self)
  refine ⟨fun h => ?_, fun h => ?_⟩
  · obtain ⟨_, hb, -⟩ := exactlyOne_results_iff.1 h hfails.evm
    cases hb.symm.trans hfails.failed
  · obtain ⟨addr, e, -, -, err, herr, k, hk, he⟩ := h ⟨_, _, hlooked, hfails⟩
    exact insertBlockInformation_error hk he (begins_conversionErrors herr)

end RollappExplorer
