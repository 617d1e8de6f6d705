import Settlement.Bytecode.Basic
import Settlement.Json.Reader
import Settlement.Session

/-!
Compiled contracts: a JSON file for each, with the bytecode in hexadecimal under `bytecode`.
-/

namespace Settlement

inductive FieldError where
  | unreadable
  | encoding
  | json (e : Json.ReadError)
  | notObject
  | missing (name : String)
  deriving DecidableEq

def FieldError.detail : FieldError → Option String
  | .missing name => some (Text.quoted name)
  | .json (.tooManyDigits n) => some (Integer.LiteralError.tooManyDigits n).message
  | _ => none

def readField [Platform] (content : Option Bytes) (name : String) : Except FieldError Value := do
  match content with
  | none => throw .unreadable
  | some bs =>
    match String.fromUTF8? ⟨bs.toArray⟩ with
    | none => throw .encoding
    | some text =>
      match ← (Json.parse text).mapError .json with
      | .mapping es =>
        match Value.field? es name with
        | some v => pure v
        | none => throw (.missing name)
      | _ => throw .notObject

namespace Artifact

inductive Error where
  | field (contract path : String) (e : FieldError)
  | notHex (path : String)
  | tooDeep
  deriving DecidableEq

def Error.summary : Error → String
  | .field contract path _ => "cannot read bytecode of " ++ contract ++ " from " ++ path
  | .notHex path => path ++ ": bytecode is not hex"
  | .tooDeep => Platform.recursionError

def Error.message (e : Error) : String :=
  match e with
  | .field _ _ f =>
    match f.detail with
    | some d => e.summary ++ ": " ++ d
    | none => e.summary
  | _ => e.summary

def file (directory : Path) (contract : String) : Path :=
  directory.join [contract ++ ".sol", contract ++ ".json"]

def ofContent [Platform] (contract path : String) (content : Option Bytes) : Except Error Bytes :=
  match readField content "bytecode" with
  | .error (.json .tooDeep) => .error .tooDeep
  | .error e => .error (.field contract path e)
  | .ok (.text s) =>
    match Hex.ofText s with
    | .ok bs => .ok bs
    | .error _ => .error (.notHex path)
  | .ok _ => .error (.notHex path)

def load [Platform] (directory : Path) (contract : String) : ExceptT Error Session Bytes := do
  let path := (file directory contract).toString
  let state ← readFile path
  ExceptT.mk (pure (ofContent contract path state.content?))

end Artifact

inductive Contract where
  | l2Bridge
  | l2StandardToken
  | transparentProxy
  | beaconProxy
  | upgradeableBeacon
  deriving DecidableEq

namespace Contract

def name : Contract → String
  | .l2Bridge => "L2ERC20Bridge"
  | .l2StandardToken => "L2StandardERC20"
  | .transparentProxy => "TransparentUpgradeableProxy"
  | .beaconProxy => "BeaconProxy"
  | .upgradeableBeacon => "UpgradeableBeacon"

def bridgeFolder : List String := ["cache-zk", "solpp-generated-contracts", "bridge"]

def transparentFolder : List String := ["@openzeppelin", "contracts", "proxy", "transparent"]

def beaconFolder : List String := ["@openzeppelin", "contracts", "proxy", "beacon"]

def folder : Contract → List String
  | .l2Bridge => bridgeFolder
  | .l2StandardToken => bridgeFolder
  | .transparentProxy => transparentFolder
  | .beaconProxy => beaconFolder
  | .upgradeableBeacon => beaconFolder

end Contract

structure Artifacts (Code : Type) where
  l2Bridge : Code
  l2StandardToken : Code
  transparentProxy : Code
  beaconProxy : Code
  upgradeableBeacon : Code
  deriving DecidableEq

def Artifacts.load [Platform] (root : Path) : ExceptT Artifact.Error Session (Artifacts Bytes) := do
  let read (c : Contract) := Artifact.load (root.join c.folder) c.name
  pure {
    l2Bridge := ← read .l2Bridge
    l2StandardToken := ← read .l2StandardToken
    transparentProxy := ← read .transparentProxy
    beaconProxy := ← read .beaconProxy
    upgradeableBeacon := ← read .upgradeableBeacon }

end Settlement
