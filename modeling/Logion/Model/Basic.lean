import Mathlib.Data.Int.Notation
import Mathlib.Data.Nat.Notation

/-!
# Basic — values shared by the whole model

Accounts, dates, hashes and thrown values.  A hash is its hexadecimal text and a UUID its text; a
date (`Moment`, `Date` or an ISO string in the source) is a number of milliseconds.  `undefined` and
`null` are both `none`: where the source tells them apart the model says so.
-/

namespace Logion

/-- A point in time: `Moment`, `Date` and ISO strings of the source. -/
abbrev Moment := ℕ

/-- A hash, as its hexadecimal text (`Hash.toHex()`). -/
abbrev Hash := String

abbrev UUID := String

/-- A text that is tested for truth: the empty one is falsy. -/
def nonEmpty (text : Option String) : Option String := if text = some "" then none else text

/-- `text.length` of JavaScript, in UTF-16 code units. -/
def utf16Length (text : String) : ℕ :=
  text.toList.foldl (fun length c => length + if c.toNat < 65536 then 1 else 2) 0

/-- What a TypeScript `throw` carries: an `Error`, or a `badRequest` of the REST layer. -/
inductive Err
  | error (message : String)
  | badRequest (message : String)
  deriving DecidableEq, Repr

/-- `AccountType` of the node API. -/
inductive AccountType
  | polkadot
  | ethereum
  | bech32
  deriving DecidableEq, Repr

/-- `ValidAccountId`: an account type and the canonical address.  `equals` is equality. -/
structure AccountId where
  type : AccountType
  address : String
  deriving DecidableEq, Repr

/-- `ValidAccountId.polkadot(address)`. -/
def AccountId.polkadot (address : String) : AccountId := ⟨.polkadot, address⟩

/-- `ChainType`. -/
inductive ChainType
  | solo
  | para
  deriving DecidableEq, Repr

/-- `Block` of `block.model.ts`. -/
structure Block where
  blockNumber : ℤ
  chainType : ChainType
  deriving DecidableEq, Repr

/-- `Block.at`. -/
def Block.at (b : Block) (blockNumber : ℤ) : Block := { b with blockNumber := blockNumber }

/-- `Hash.of`, the hash function of the node API, is a parameter of the model. -/
class Hashing where
  of : String → Hash

end Logion
