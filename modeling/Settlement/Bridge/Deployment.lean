import Settlement.Abi
import Settlement.Bytecode.Artifact

/-!
Where the contracts of the bridge will stand. An address on the second layer is fixed by its deployer,
its bytecode and its arguments; a contract of the first layer acts there under an alias.
-/

namespace Settlement.Bridge

def aliasOffset : Nat := 0x1111000000000000000000000000000000001111

def addressModulus : Nat := Nat.pow 2 160

def applyAlias (a : Address) : Address :=
  .ofNat ((a.toNat + aliasOffset) % addressModulus)

def undoAlias (a : Address) : Address :=
  .ofNat ((a.toNat + (addressModulus - aliasOffset)) % addressModulus)

def create2Marker : Bytes :=
  keccak256 (Bytes.ofString "zksyncCreate2")

def zeroSalt : Bytes := Bytes.zeros 32

inductive Error where
  | address (v : Value)
  | format
  | mistyped
  | salt (bytes : Nat)
  | bytecode (e : Bytecode.Error)
  | encoding (e : Abi.Error)

def Error.message : Error → String
  | .address v => "invalid address " ++ v.render
  | .format => "not an address"
  | .mistyped => "not an address"
  | .salt n => s!"salt must be 32 bytes, got {n}"
  | .bytecode e => e.message
  | .encoding _ => "argument out of bounds"

def namedAddress (v : Value) : Except Error Address :=
  match Address.ofValue v with
  | .ok a => .ok a
  | .error .format => .error (.address v)
  | .error .mistyped => .error .mistyped

def plainAddress (v : Value) : Except Error Address :=
  match Address.ofValue v with
  | .ok a => .ok a
  | .error .format => .error .format
  | .error .mistyped => .error .mistyped

def aliasOfValue (shifted : Address → Address) (v : Value) : Except Error String := do
  let a ← namedAddress v
  pure (shifted a).checksum

def applyAliasOfValue : Value → Except Error String := aliasOfValue applyAlias

def undoAliasOfValue : Value → Except Error String := aliasOfValue undoAlias

/-- The bytes whose hash ends in the address: marker, sender, salt, and the hashes of the bytecode and
of the constructor's input. -/
def create2Preimage (sender : Address) (salt codeHash input : Bytes) : Bytes :=
  create2Marker ++ Bytes.padLeft 32 sender.bytes ++ salt ++ codeHash ++ keccak256 input

def create2 (sender : Address) (salt codeHash input : Bytes) : Address :=
  .ofHash (keccak256 (create2Preimage sender salt codeHash input))

def create2OfValues (sender : Value) (code : Bytecode.Source) (input salt : Bytes) :
    Except Error Address := do
  if salt.length ≠ 32 then throw (.salt salt.length)
  let sender ← namedAddress sender
  let codeHash ← (Bytecode.hashSource code).mapError .bytecode
  pure (create2 sender salt codeHash input)

def l2InitializeSignature : String := "initialize(address,bytes32,address)"

def l2InitializeCalldata (l1Bridge : Address) (beaconProxyHash : Bytes) (governor : Address) :
    Except Abi.Error Bytes :=
  Abi.call l2InitializeSignature [.address l1Bridge, .bytes32 beaconProxyHash, .address governor]

def l2InitializeCalldataOfValues (l1Bridge : Value) (beaconProxyHash : Bytes) (governor : Value) :
    Except Error Bytes := do
  let l1Bridge ← plainAddress l1Bridge
  let governor ← plainAddress governor
  (l2InitializeCalldata l1Bridge beaconProxyHash governor).mapError .encoding

structure Addresses where
  l2BridgeImplementation : Address
  l2BridgeProxy : Address
  l2StandardToken : Address
  l2TokenFactory : Address
  proxyInitData : Bytes
  deriving DecidableEq

section

variable {Code : Type} (hash : Code → Except Bytecode.Error Bytes)

def place (sender : Address) (code : Code) (input : Bytes) : Except Error Address := do
  let codeHash ← (hash code).mapError .bytecode
  pure (create2 sender zeroSalt codeHash input)

/-- The implementation and its proxy are deployed by the alias of the first layer's bridge, the token
and its factory by the proxy. -/
def derive (l1Bridge governor : Address) (artifacts : Artifacts Code) : Except Error Addresses := do
  let deployer := applyAlias l1Bridge
  let implementation ← place hash deployer artifacts.l2Bridge []
  let beaconHash ← (hash artifacts.beaconProxy).mapError .bytecode
  let initData ← (l2InitializeCalldata l1Bridge beaconHash governor).mapError .encoding
  let proxyInput ←
    (Abi.encode [.address implementation, .address governor, .bytes initData]).mapError .encoding
  let proxy ← place hash deployer artifacts.transparentProxy proxyInput
  let token ← place hash proxy artifacts.l2StandardToken []
  let factoryInput ← (Abi.encode [.address token]).mapError .encoding
  let factory ← place hash proxy artifacts.upgradeableBeacon factoryInput
  pure ⟨implementation, proxy, token, factory, initData⟩

end

def deriveOfValues (l1Bridge governor : Value) (artifacts : Artifacts Bytecode.Source) :
    Except Error Addresses := do
  let l1Bridge ← namedAddress l1Bridge
  let governor ← plainAddress governor
  derive Bytecode.hashSource l1Bridge governor artifacts

def requestSignature : String :=
  "requestL2Transaction(address,uint256,bytes,uint256,uint256,bytes[],address)"

def l1InitializeSignature : String := "initialize(bytes[],address,address)"

def governorSignature : String := "getGovernor()"

def l2BridgeSignature : String := "l2Bridge()"

def requestArguments (l2GasLimit gasPerPubdata : Int) (factoryDeps : Abi.Argument) (refund : Address) :
    List Abi.Argument :=
  [.address .zero, .number 0, .bytes [], .number l2GasLimit, .number gasPerPubdata, factoryDeps,
   .address refund]

def requestCalldata (l2GasLimit gasPerPubdata : Int) (factoryDeps : List Bytes) (refund : Address) :
    Except Abi.Error Bytes :=
  Abi.call requestSignature (requestArguments l2GasLimit gasPerPubdata (.bytesList factoryDeps) refund)

def bytecodeArgument (codes : List Bytecode.Source) : Abi.Argument :=
  match codes.mapM Bytecode.Source.raw? with
  | some items => .bytesList items
  | none => .foreign

def requestCalldataOfValues (l2GasLimit gasPerPubdata : Int) (factoryDeps : List Bytecode.Source)
    (refund : Value) : Except Error Bytes := do
  let refund ← plainAddress refund
  let args := requestArguments l2GasLimit gasPerPubdata (bytecodeArgument factoryDeps) refund
  (Abi.call requestSignature args).mapError .encoding

def l1InitializeCalldata (factoryDeps : List Bytes) (tokenFactory governor : Address) :
    Except Abi.Error Bytes :=
  Abi.call l1InitializeSignature [.bytesList factoryDeps, .address tokenFactory, .address governor]

def l1InitializeCalldataOfValues (factoryDeps : List Bytecode.Source) (tokenFactory governor : Value) :
    Except Error Bytes := do
  let tokenFactory ← plainAddress tokenFactory
  let governor ← plainAddress governor
  (Abi.call l1InitializeSignature
    [bytecodeArgument factoryDeps, .address tokenFactory, .address governor]).mapError .encoding

end Settlement.Bridge
