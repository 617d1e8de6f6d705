import Settlement.Address
import Settlement.Bytecode.Artifact
import Settlement.Environment
import Settlement.Session

namespace Settlement.Bridge

structure Config where
  home : Path
  rpcUrl : String
  mnemonic : Option String
  priorityGasLimit : Int
  diamondProxy : Address
  l1Bridge : Address
  gasPerPubdata : Int
  deriving DecidableEq

namespace Config

inductive Error where
  | unset (name : String)
  | notAddress (name text : String)
  | notNumber (name text : String)
  deriving DecidableEq

def Error.message : Error → String
  | .unset name => "environment variable " ++ name ++ " is not set"
  | .notAddress name text => name ++ " is not an address: " ++ Text.quoted text
  | .notNumber name text => name ++ " is not a number: " ++ Text.quoted text

def homeVariable : String := "ZKSYNC_HOME"

def urlVariable : String := "ETH_CLIENT_WEB3_URL"

def mnemonicVariable : String := "MNEMONIC"

def gasLimitVariable : String := "CONTRACTS_PRIORITY_TX_MAX_GAS_LIMIT"

def diamondVariable : String := "CONTRACTS_DIAMOND_PROXY_ADDR"

def l1BridgeVariable : String := "CONTRACTS_L1_ERC20_BRIDGE_PROXY_ADDR"

def pubdataVariable : String := "L2_GAS_PRICE_PER_PUBDATA"

def variableNames : List String :=
  [homeVariable, urlVariable, mnemonicVariable, gasLimitVariable, diamondVariable, l1BridgeVariable,
   pubdataVariable]

def standardUrl : String := "http://127.0.0.1:8545"

def standardGasPerPubdata : Int := 800

def required (env : Environment) (name : String) : Except Error String :=
  match env.nonEmpty? name with
  | some v => .ok v
  | none => .error (.unset name)

def address [Platform] (env : Environment) (name : String) : Except Error Address := do
  let text ← required env name
  Address.ofText (.notAddress name text) text

def readNumber (name text : String) : Except Error Int :=
  (Integer.parse 0 text).mapError fun _ => .notNumber name text

def number (env : Environment) (name : String) : Except Error Int := do
  readNumber name (← required env name)

def numberOr (standard : Int) (env : Environment) (name : String) : Except Error Int :=
  match env.nonEmpty? name with
  | some text => readNumber name text
  | none => .ok standard

def ofEnvironment [Platform] (env : Environment) : Except Error Config := do
  let home ← required env homeVariable
  let priorityGasLimit ← number env gasLimitVariable
  let diamondProxy ← address env diamondVariable
  let l1Bridge ← address env l1BridgeVariable
  let gasPerPubdata ← numberOr standardGasPerPubdata env pubdataVariable
  pure {
    home := .ofString home
    rpcUrl := (env urlVariable).getD standardUrl
    mnemonic := env.nonEmpty? mnemonicVariable
    priorityGasLimit, diamondProxy, l1Bridge, gasPerPubdata }

def artifactsRoot (c : Config) : Path :=
  c.home.join ["contracts", "zksync", "artifacts-zk"]

def testConfig (c : Config) : Path :=
  c.home.join ["etc", "test_config", "constant", "eth.json"]

def deployerMnemonic [Platform] (c : Config) : Session (Except FieldError Value) :=
  match c.mnemonic with
  | some phrase => pure (.ok (.text phrase))
  | none => do
    let file ← readFile c.testConfig.toString
    pure (readField file.content? "mnemonic")

end Config

end Settlement.Bridge
