/-
  Constants of the indexer and its validation helpers (`constants/validation.go`,
  `constants/indexer.go`, `utils/validation.go`, `utils/epoch.go`).

  * `normalizeChainId`, `normalizeAddress`: the keys of the database are trimmed
    and lower case; `normalizeAddress_idem`: they are normal forms;
  * `isEvmAddress`, `isValidCosmosTransactionHash`, `isValidEvmTransactionHash`: the
    regular expressions, as predicates on the characters.
-/
import RollappExplorer.Go.Strings

namespace RollappExplorer

open Go

/-! ## Constants -/

def rpcTxAheadBlockTimeAllowed : ℤ := 86400 - 1
def rpcTxMaximumTxsPerBlockAllowed : ℕ := 100
def rpcTxMaximumMessagesPerTxAllowed : ℕ := 30
def rpcTxMaximumSystemMessagesPerTxAllowed : ℕ := 300
def rpcTxMaximumStringSizeAllowed : ℕ := 1000
def rpcTxMaximumSignersPerTx : ℕ := 10
def rpcTxMaximumLengthAddressAllowed : ℕ := 100
def rpcTxMaximumInvolversPerTxAllowed : ℕ := 250
def rpcTxMaximumTokenContractsInvolvesPerTxAllowed : ℕ := 20

def maximumNumberOfBlocksToIndexPerBatch : ℕ := 100
def retryIndexingFailedBlockGapSeconds : ℤ := 60
def retryIndexingFailedBlockMaxRetries : ℤ := 100

/-! ## Normal forms -/

def normalizeChainId (chainId : String) : String := toLower (trimSpace chainId)

def normalizeAddress (addr : String) : String := toLower (trimSpace addr)

theorem normalizeChainId_idem (s : String) :
    normalizeChainId (normalizeChainId s) = normalizeChainId s := toLower_trimSpace_idem s

theorem normalizeAddress_idem (s : String) :
    normalizeAddress (normalizeAddress s) = normalizeAddress s := toLower_trimSpace_idem s

/-- A text with a character other than white space has a normal form. -/
theorem normalizeAddress_ne_empty {s : String} {c : Char} (hc : c ∈ s.toList)
    (hs : isSpace c = false) : normalizeAddress s ≠ "" := by
  intro h
  have hl : (normalizeAddress s).toList = [] := by rw [h]; rfl
  rw [normalizeAddress, toList_toLower, toList_trimSpace, List.map_eq_nil_iff] at hl
  have hm := mem_trim hc hs
  rw [hl] at hm
  cases hm

/-! ## Formats -/

/-- `[\da-f]` -/
def isLowerHex (c : Char) : Bool := c.isDigit || ('a' ≤ c && c ≤ 'f')

/-- `[\da-fA-F]` -/
def isHex (c : Char) : Bool := isLowerHex c || ('A' ≤ c && c ≤ 'F')

/-- `[A-Z\d]` -/
def isUpperAlnum (c : Char) : Bool := ('A' ≤ c && c ≤ 'Z') || c.isDigit

/-- The text is `n` characters that satisfy `p`. -/
def allOfLength (p : Char → Bool) (n : ℕ) (l : List Char) : Bool := l.length == n && l.all p

/-- The text is `0x` and `n` characters that satisfy `p`. -/
def hexPrefixed (p : Char → Bool) (n : ℕ) : List Char → Bool
  | '0' :: 'x' :: l => allOfLength p n l
  | _ => false

/-- `^0x[\da-fA-F]{40}$` on the normal form. -/
def isEvmAddress (addr : String) : Bool := hexPrefixed isHex 40 (normalizeAddress addr).toList

/-- `^[A-Z\d]{64}$` -/
def isValidCosmosTransactionHash (hash : String) : Bool := allOfLength isUpperAlnum 64 hash.toList

/-- `^0x[\da-f]{64}$` -/
def isValidEvmTransactionHash (hash : String) : Bool := hexPrefixed isLowerHex 64 hash.toList

/-- The part before the `1` of a text with exactly one `1`, and whether it may be
    the human-readable part of a bech32 address. -/
def unsafeExtractBech32Hrp (bech32Addr : String) : String × Bool :=
  match split bech32Addr '1' with
  | [hrp, data] => (hrp, hrp ≠ "" && 7 ≤ len data)
  | _ => ("", false)

/-! ## Epochs -/

/-- The week of an epoch; `now` stands for the missing one (zero). -/
def getEpochWeek (now optionalEpochUtcSeconds : ℤ) : ℤ :=
  (if optionalEpochUtcSeconds = 0 then now else optionalEpochUtcSeconds).tdiv (86400 * 7)

end RollappExplorer
