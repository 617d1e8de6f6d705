import Settlement.Bridge.Config
import Settlement.Wallet.Account

namespace Settlement.Bridge.Deployer

inductive Error where
  | mnemonicFile (path : String) (e : FieldError)
  | notObject
  | tooDeep
  | account (e : Account.Error)
  deriving DecidableEq

def Error.summary : Error → String
  | .mnemonicFile path _ => "no MNEMONIC set and cannot read " ++ path
  | .notObject => "cannot load deployer wallet"
  | .tooDeep => Platform.recursionError
  | .account _ => "cannot load deployer wallet"

def Error.message (e : Error) : String :=
  match e with
  | .mnemonicFile _ f =>
    match f.detail with
    | some d => e.summary ++ ": " ++ d
    | none => e.summary
  | _ => e.summary

def ofMnemonic : Value → Except Account.Error Account
  | .text phrase => Account.ofMnemonic phrase
  | _ => .error .mnemonic

def mnemonic [Platform] (c : Config) : Session (Except Error Value) := do
  match ← c.deployerMnemonic with
  | .ok v => pure (.ok v)
  | .error .notObject => pure (.error .notObject)
  | .error (.json .tooDeep) => pure (.error .tooDeep)
  | .error e => pure (.error (.mnemonicFile c.testConfig.toString e))

def load [Platform] (secret : Option String) (c : Config) : Session (Except Error Account) := do
  -- an empty secret counts as absent
  match secret.filter (· != "") with
  | some text => pure ((Account.ofText text).mapError .account)
  | none =>
    match ← mnemonic c with
    | .ok v => pure ((ofMnemonic v).mapError .account)
    | .error e => pure (.error e)

end Settlement.Bridge.Deployer
