import Logion.Model.Basic
import Logion.Lib.Fallible
import Mathlib.Data.List.Infix

/-!
# TokenOwnership — who owns the token of an item (`ownershipcheck.service.ts`, `services/ownership`)

The type of a token says which network is asked, and its id what is asked for.  `Networks` is what the
networks answer at one moment; JSON and unknown addresses are read by `TokenParsers`.

* `OwnershipCheckService.isOwner`: the check, network by network.
-/

namespace Logion

open Fallible

/-! ### Tokens -/

/-- `CollectionItemTokenDescription`. -/
structure CollectionItemTokenDescription where
  type : Option String
  id : Option String
  deriving DecidableEq, Repr

/-- The columns of `CollectionItemToken`. -/
structure CollectionItemToken where
  type : Option String := none
  id : Option String := none
  deriving DecidableEq, Repr

def CollectionItemToken.getDescription (token : CollectionItemToken) :
    Option CollectionItemTokenDescription :=
  match nonEmpty token.type, nonEmpty token.id with
  | some type, some id => some ⟨some type, some id⟩
  | _, _ => none

/-! ### Token ids in JSON -/

inductive Json
  | null
  | bool (value : Bool)
  | number (text : String)
  | string (value : String)
  | array (values : List Json)
  | object (fields : List (String × Json))

namespace Json

/-- `value.name`; `none` is `undefined`. -/
def field (name : String) : Json → Except Err (Option Json)
  | null => throw (.error s!"Cannot read properties of null (reading '{name}')")
  | object fields => return (fields.find? fun entry => entry.1 = name).map Prod.snd
  | _ => return none

def typeof : Option Json → String
  | none => "undefined"
  | some (bool _) => "boolean"
  | some (number _) => "number"
  | some (string _) => "string"
  | some null | some (array _) | some (object _) => "object"

end Json

/-- `JSON.parse` (`none` when it throws) and `ValidAccountId.fromUnknown`. -/
class TokenParsers where
  parse : String → Option Json
  fromUnknown : String → Option AccountId

/-! ### The networks -/

/-- `Network` of `alchemy-sdk`. -/
inductive AlchemyNetwork
  | ethMainnet
  | ethSepolia
  | maticMainnet
  | maticAmoy
  deriving DecidableEq, Repr

def AlchemyNetwork.text : AlchemyNetwork → String
  | ethMainnet => "eth-mainnet"
  | ethSepolia => "eth-sepolia"
  | maticMainnet => "polygon-mainnet"
  | maticAmoy => "polygon-amoy"

inductive AstarNetwork
  | astar
  | shiden
  | shibuya
  deriving DecidableEq, Repr

/-- `TokenBalance` of `alchemy-sdk`. -/
structure TokenBalance where
  contractAddress : String
  tokenBalance : Option ℕ
  error : Option String := none
  deriving DecidableEq, Repr

/-- What the API of MultiversX answers about a token of an account; a balance that is no number is
none. -/
structure MultiversxNft where
  type : Option String
  balance : Option ℤ
  deriving DecidableEq, Repr

/-- What the networks answer at one moment, and which keys of Alchemy are configured. -/
structure Networks where
  apiKeys : AlchemyNetwork → Bool
  getOwnersForNft : AlchemyNetwork → String → String → Except Err (List AccountId)
  getTokenBalances : AlchemyNetwork → String → String → Except Err (List TokenBalance)
  singularOwners : String → Except Err (List AccountId)
  multiversxNft : String → String → String → Except Err MultiversxNft
  psp34OwnerOf : AstarNetwork → String → Option Json → Except Err (Option AccountId)

namespace OwnershipCheckService

def includes (text part : String) : Bool := decide (part.toList <:+: text.toList)

def startsWith (text part : String) : Bool := decide (part.toList <+: text.toList)

def isAlchemyNetwork (tokenType : String) : Bool :=
  includes tokenType "erc721" || includes tokenType "erc1155" || includes tokenType "erc20"

def getNetwork (tokenType : String) : Except Err AlchemyNetwork :=
  if startsWith tokenType "ethereum_" then return .ethMainnet
  else if startsWith tokenType "goerli_" then return .ethSepolia
  else if startsWith tokenType "polygon_mumbai_" then return .maticAmoy
  else if startsWith tokenType "polygon_" then return .maticMainnet
  else throw (.error s!"Could not get Alchemy network from token type {tokenType}")

/-- `AlchemyService.getChecker`. -/
def getChecker (networks : Networks) (network : AlchemyNetwork) : Except Err Unit :=
  if networks.apiKeys network then return ()
  else throw (.error s!"No API key configured for network {network.text}")

variable [TokenParsers]

def parseTokenId (tokenId : String) : Except Err Json :=
  match TokenParsers.parse tokenId with
  | none => throw (.error "Token ID is not a valid JSON")
  | some json => return json

def wrongSchema : Err := .error "Token ID has wrong schema"

def parseErc721Or1155TokenId (tokenId : String) : Except Err (String × String) := do
  let tokenIdObject ← parseTokenId tokenId
  let contractHash ← tokenIdObject.field "contract"
  let contractTokenId ← tokenIdObject.field "id"
  match contractHash, contractTokenId with
  | some (.string contractHash), some (.string contractTokenId) => return (contractHash, contractTokenId)
  | _, _ => throw wrongSchema

def parseErc20TokenId (tokenId : String) : Except Err String := do
  let tokenIdObject ← parseTokenId tokenId
  let contractHash ← tokenIdObject.field "contract"
  match contractHash with
  | some (.string contractHash) => return contractHash
  | _ => throw wrongSchema

def parseAstarTokenId (tokenId : String) : Except Err (String × Option Json) := do
  let tokenIdObject ← parseTokenId tokenId
  let contractHash ← tokenIdObject.field "contract"
  let contractTokenId ← tokenIdObject.field "id"
  match contractHash with
  | some (.string contractHash) =>
    if Json.typeof contractTokenId ≠ "object" then throw wrongSchema
    else return (contractHash, contractTokenId)
  | _ => throw wrongSchema

def isOwnerOfErc721OrErc1155 (networks : Networks) (network : AlchemyNetwork) (account : AccountId)
    (itemTokenId : String) : Except Err Bool := do
  if account.type ≠ .ethereum then return false
  else
    let (contractHash, tokenId) ← parseErc721Or1155TokenId itemTokenId
    let owners ← networks.getOwnersForNft network contractHash tokenId
    return owners.any fun owner => account = owner

/-- With `AlchemyChecker.getBalances`. -/
def isOwnerOfErc20 (networks : Networks) (network : AlchemyNetwork) (account : AccountId)
    (itemTokenId : String) : Except Err Bool := do
  if account.type ≠ .ethereum then return false
  else
    let contractHash ← parseErc20TokenId itemTokenId
    let balances ← networks.getTokenBalances network account.address contractHash
    let balance := balances.find? fun balance =>
      balance.contractAddress = contractHash ∧ (nonEmpty balance.error).isNone
    return (balance.bind TokenBalance.tokenBalance).any fun amount => amount ≠ 0

def isOwnerOfSingularKusama (networks : Networks) (account : AccountId) (tokenId : String) :
    Except Err Bool := do
  let owners ← networks.singularOwners tokenId
  return owners.any fun owner => owner = account

/-- The host of `MultiversxService.getChecker`. -/
def multiversxHost (tokenType : String) : Option String :=
  if tokenType = "multiversx_devnet_esdt" then some "devnet-api"
  else if tokenType = "multiversx_testnet_esdt" then some "testnet-api"
  else if tokenType = "multiversx_esdt" then some "api"
  else none

/-- `MultiversxChecker.isOwnerOf`: an exception is only logged. -/
def isOwnerOfMultiversx (networks : Networks) (host : String) (account : AccountId)
    (tokenId : String) : Bool :=
  if account.type ≠ .bech32 then false
  else match networks.multiversxNft host account.address tokenId with
    | .error _ => false
    | .ok nft =>
      match nonEmpty nft.type with
      | none => false
      | some type =>
        if type = "NonFungibleESDT" then true else nft.balance.any fun balance => balance > 0

def getAstarNetwork (tokenType : String) : Except Err AstarNetwork :=
  if startsWith tokenType "astar_shiden_" then return .shiden
  else if startsWith tokenType "astar_shibuya_" then return .shibuya
  else if startsWith tokenType "astar_" then return .astar
  else throw (.error s!"Could not get Astar network from token type {tokenType}")

def getAstarTokenType (tokenType : String) : Except Err Unit :=
  if includes tokenType "psp34" then return ()
  else throw (.error s!"Could not get Astar token type from {tokenType}")

def isOwner (networks : Networks) (account : AccountId) (token : CollectionItemTokenDescription) :
    Except Err Bool :=
  match nonEmpty token.id, nonEmpty token.type with
  | some tokenId, some tokenType =>
    if isAlchemyNetwork tokenType then do
      let network ← getNetwork tokenType
      getChecker networks network
      if includes tokenType "erc721" || includes tokenType "erc1155" then
        isOwnerOfErc721OrErc1155 networks network account tokenId
      else if includes tokenType "erc20" then isOwnerOfErc20 networks network account tokenId
      else throw (.error s!"Unsupported Alchemy token {tokenType}")
    else if tokenType = "owner" then return TokenParsers.fromUnknown tokenId = some account
    else if tokenType = "singular_kusama" then isOwnerOfSingularKusama networks account tokenId
    else if startsWith tokenType "multiversx" then
      match multiversxHost tokenType with
      | some host => return isOwnerOfMultiversx networks host account tokenId
      | none => throw (.error s!"Unsupported MultiversX token {tokenType}")
    else if startsWith tokenType "astar" then do
      let network ← getAstarNetwork tokenType
      getAstarTokenType tokenType
      let (contractHash, contractTokenId) ← parseAstarTokenId tokenId
      let owner ← networks.psp34OwnerOf network contractHash contractTokenId
      return owner = some account
    else throw (.error s!"Unsupported token type {tokenType}")
  | _, _ => return false

end OwnershipCheckService

end Logion
