import Settlement.Bridge.Config
import Settlement.Bridge.Deployment
import Settlement.GasPrice
import Settlement.Rpc.Client
import Settlement.Wallet.Account
import Settlement.Wallet.Transaction

/-!
Bringing up a bridge. Where its contracts will stand is computed in advance; two transactions with
consecutive nonces are then submitted, one that publishes bytecodes and one that deploys the bridge,
and their receipts are awaited.
-/

namespace Settlement.Bridge.BringUp

inductive Error where
  | rpc (e : Rpc.Error)
  | artifact (e : Artifact.Error)
  | deployment (e : Bridge.Error)
  | undecodable (signature contract : String) (data : Bytes)
  | gasPrice
  | tooLong
  | sign (e : Transaction.SignError)
  | notReceipt
  | missing (field : String)
  | mistyped
  | number (e : Integer.LiteralError)
  | reverted (hash : Value)

def Error.message : Error → String
  | .rpc e => e.message
  | .artifact e => e.message
  | .deployment e => e.message
  | .undecodable signature contract data =>
    signature ++ " on " ++ contract ++ " returned undecodable data: 0x" ++ Hex.ofBytes data
  | .gasPrice => "gas price out of range"
  | .tooLong => Integer.unwritable
  | .sign _ => "negative number in a transaction"
  | .notReceipt => "receipt is not an object"
  | .missing field => Text.quoted field
  | .mistyped => "field of a receipt is not text"
  | .number e => e.message
  | .reverted hash => "transaction " ++ hash.display ++ " reverted"

/-- A computation over numbered remote calls that may also fail in other ways. -/
abbrev Action (α : Type) := ExceptT Error (StateT Nat Session) α

def ofCall {α : Type} (x : Rpc.Call α) : Action α :=
  ExceptT.mk do
    match ← x.run with
    | .ok a => pure (.ok a)
    | .error e => pure (.error (.rpc e))

def ofSession {α : Type} (x : Session (Except Error α)) : Action α :=
  ExceptT.mk (StateT.lift x)

def ofExcept {ε α : Type} (f : ε → Error) (x : Except ε α) : Action α :=
  ExceptT.mk (pure (x.mapError f))

def echo (line : String) : Action Unit :=
  ofSession do
    printLine line
    pure (.ok ())

def latest : Value := .text "latest"

def callAddress [Platform] (c : Rpc.Client) (contract signature : String) : Action Address := do
  let out ← ofCall (c.call contract (Abi.selector signature) latest)
  match Abi.decodeAddress? out with
  | some a => pure a
  | none => throw (.undecodable signature contract out)

def decimal (n : Int) : Action String := do
  if n.natAbs ≥ Nat.pow 10 Integer.maxDigits then throw .tooLong
  pure (toString n)

structure Options where
  -- in wei; the node is asked for one if none is given
  gasPrice : Option Int := none
  -- of the first transaction; the node is asked for the next one if none is given
  nonce : Option Int := none
  receiptTimeout : Binary64 := .ofInt 300
  pollInterval : Binary64 := .ofInt 1

structure Terms where
  gasPrice : Int
  nonce : Int

def terms [Platform] (c : Rpc.Client) (deployer : String) (o : Options) : Action Terms := do
  let gasPrice ← match o.gasPrice with
    | some n => pure n
    | none => ofCall c.gasPrice
  if gasPrice < 0 ∨ gasPrice > GasPrice.maxWei then throw .gasPrice
  echo ("Using gas price: " ++ GasPrice.inGwei gasPrice.toNat ++ " gwei")
  let nonce ← match o.nonce with
    | some n => pure n
    | none => ofCall (c.transactionCount deployer latest)
  echo ("Using nonce: " ++ (← decimal nonce))
  pure ⟨gasPrice, nonce⟩

structure ContractCall where
  contract : Address
  data : Bytes

def publish (config : Config) (deployer : Address) (a : Artifacts Bytes) : Except Abi.Error ContractCall := do
  let data ← requestCalldata config.priorityGasLimit config.gasPerPubdata
    [a.upgradeableBeacon, a.l2StandardToken] deployer
  pure ⟨config.diamondProxy, data⟩

def deploy (config : Config) (a : Artifacts Bytes) (tokenFactory governor : Address) :
    Except Abi.Error ContractCall := do
  let data ← l1InitializeCalldata [a.l2Bridge, a.transparentProxy, a.beaconProxy] tokenFactory governor
  pure ⟨config.l1Bridge, data⟩

structure Plan where
  addresses : Addresses
  governor : Address
  calls : List ContractCall

def plan [Platform] (config : Config) (c : Rpc.Client) (deployer : Address) : Action Plan := do
  let artifacts ← ofSession do
    pure ((← (Artifacts.load config.artifactsRoot).run).mapError .artifact)
  let governor ← callAddress c config.diamondProxy.checksum governorSignature
  let addresses ← ofExcept .deployment (derive Bytecode.hash config.l1Bridge governor artifacts)
  let encoding (e : Abi.Error) : Error := .deployment (.encoding e)
  let first ← ofExcept encoding (publish config deployer artifacts)
  let second ← ofExcept encoding (deploy config artifacts addresses.l2TokenFactory governor)
  pure ⟨addresses, governor, [first, second]⟩

def estimateObject (deployer : Address) (call : ContractCall) : Value :=
  .object [("from", .text deployer.checksum), ("to", .text call.contract.checksum),
    ("data", Rpc.Client.hexData call.data), ("value", .int 0)]

def submit [Platform] (c : Rpc.Client) (account : Account) (chainId gasPrice nonce : Int)
    (call : ContractCall) : Action Value := do
  let gas ← ofCall (c.estimateGas (estimateObject account.address call))
  let transaction : Transaction :=
    { nonce, gasPrice, gas, recipient := call.contract, value := 0, data := call.data, chainId }
  let raw ← ofExcept .sign (transaction.sign account.secret)
  ofCall (c.sendRawTransaction raw)

def submitAll [Platform] (c : Rpc.Client) (account : Account) (chainId gasPrice : Int) :
    Int → List ContractCall → Action (List Value)
  | _, [] => pure []
  | nonce, call :: calls => do
    let hash ← submit c account chainId gasPrice nonce call
    let hashes ← submitAll c account chainId gasPrice (nonce + 1) calls
    pure (hash :: hashes)

def readNumber : Value → Except Error Int
  | .text s => (Integer.parse 16 s).mapError .number
  | .halves bs => (Integer.parseHalves 16 bs).mapError .number
  | _ => .error .mistyped

def checkStatus (hash : Value) (receipt : Value) : Except Error Unit := do
  -- a receipt without a status counts as a success
  match receipt with
  | .mapping es =>
    let status ← readNumber ((Value.field? es "status").getD (.text "0x1"))
    if status ≠ 1 then throw (.reverted hash)
  | _ => throw .notReceipt

def gasUsed (receipt : Value) : Except Error Int :=
  match receipt with
  | .mapping es =>
    match Value.field? es "gasUsed" with
    | some v => readNumber v
    | none => .error (.missing "gasUsed")
  | _ => .error .notReceipt

structure Result where
  addresses : Addresses
  governor : Address
  transactions : List Value
  gasUsed : Int
  l2Bridge : Address

def run [Platform] (config : Config) (c : Rpc.Client) (account : Account) (o : Options) : Action Result := do
  echo ("Using deployer wallet: " ++ account.address.checksum)
  let terms ← terms c account.address.checksum o
  let plan ← plan config c account.address
  let chainId ← ofCall c.chainId
  let hashes ← submitAll c account chainId terms.gasPrice terms.nonce plan.calls
  let receipts ← hashes.mapM fun h => ofCall (c.waitForReceipt h o.receiptTimeout o.pollInterval)
  for (h, receipt) in hashes.zip receipts do
    ofExcept id (checkStatus h receipt)
  let gas ← ofExcept id (gasUsed (receipts.getLastD .null))
  echo ("ERC20 bridge initialized, gasUsed: " ++ (← decimal gas))
  let l2Bridge ← callAddress c config.l1Bridge.checksum l2BridgeSignature
  echo ("CONTRACTS_L2_ERC20_BRIDGE_ADDR=" ++ l2Bridge.checksum)
  pure ⟨plan.addresses, plan.governor, hashes, gas, l2Bridge⟩

end Settlement.Bridge.BringUp
