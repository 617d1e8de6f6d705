import Settlement.Bridge.BringUp
import Settlement.Bridge.Deployer
import Settlement.Command.Arguments
import Settlement.Command.Run

namespace Settlement.Command.Bridge

open Settlement.Bridge

inductive Fault where
  | gasPrice
  | mnemonic
  | bringUp (e : BringUp.Error)

def Fault.message : Fault → String
  | .gasPrice => GasPrice.Error.overflow.message
  | .mnemonic => Platform.recursionError
  | .bringUp e => e.message

def usage : List String :=
  ["[--private-key HEX] [--gas-price GWEI] [--nonce NUMBER]"]

structure Options where
  secret : Option String
  gasPrice : Option String
  nonce : Option Int
  deriving DecidableEq

abbrev Step (α : Type) := Run Fault α

def report? : BringUp.Error → Option String
  | .rpc (.quantity _) => none
  | .rpc .digits => none
  | .rpc .overflow => none
  | .rpc (.pause _) => none
  | .rpc (.unwritable _) => none
  | .rpc .tooDeep => none
  | .rpc e => some e.report
  | .artifact .tooDeep => none
  | .artifact e => some e.summary
  | .deployment (.bytecode e) => some e.message
  | .undecodable signature contract data => some (BringUp.Error.undecodable signature contract data).message
  | .reverted hash => some (BringUp.Error.reverted hash).message
  | _ => none

def readConfig [Platform] (env : Environment) : Step Config :=
  match Config.ofEnvironment env with
  | .ok c => pure c
  | .error e => Run.fail 1 e.message

def readAccount [Platform] (o : Options) (config : Config) : Step Account := do
  match ← Run.ofSession (Deployer.load o.secret config) with
  | .ok a => pure a
  | .error .tooDeep => Run.stopAt .mnemonic
  | .error e => Run.fail 1 e.summary

def readGasPrice (o : Options) : Step (Option Int) :=
  match o.gasPrice with
  | none => pure none
  | some text =>
    match GasPrice.parse text with
    | .ok n => pure (some (n : Int))
    | .error .overflow => Run.stopAt .gasPrice
    | .error e => Run.fail 1 e.report

def perform [Platform] (env : Environment) (o : Options) : Step Unit := do
  let config ← readConfig env
  let account ← readAccount o config
  let gasPrice ← readGasPrice o
  let run := BringUp.run config { url := config.rpcUrl } account { gasPrice, nonce := o.nonce }
  match (← Run.ofSession (run.run 0)).1 with
  | .ok _ => pure ()
  | .error e =>
    match report? e with
    | some message => Run.fail 1 message
    | none => Run.stopAt (.bringUp e)

def options? (args : List String) : Option Options := do
  let a ← Arguments.parse? ["--private-key", "--gas-price", "--nonce"] args
  guard a.operands.isEmpty
  let nonce ← match a.value? "--nonce" with
    | none => some none
    | some text => (Integer.parse 10 text).toOption.map some
  some ⟨a.value? "--private-key", a.value? "--gas-price", nonce⟩

def session [Platform] (env : Environment) (args : List String) : Session (Ending Fault) :=
  match options? args with
  | some o => (perform env o).session
  | none => pure .usage

end Settlement.Command.Bridge
