import Settlement.Environment
import Settlement.Path

namespace Settlement.Verifier

structure Settings where
  keyPath : Option Path
  policyPath : Option Path
  logLevel : String
  deriving DecidableEq

namespace Settings

def keyVariable : String := "ZK_VK_PATH"

def policyVariable : String := "ZK_POLICY_PATH"

def levelVariable : String := "ZK_LOG_LEVEL"

def variableNames : List String := [keyVariable, policyVariable, levelVariable]

def standardLevel : String := "WARNING"

def ofEnvironment (env : Environment) : Settings where
  keyPath := (env.nonEmpty? keyVariable).map Path.ofString
  policyPath := (env.nonEmpty? policyVariable).map Path.ofString
  logLevel := (env levelVariable).getD standardLevel

def capital (c : Char) : Char :=
  if c.toNat = 0x131 then 'I' else if c.toNat = 0x17f then 'S' else c.toUpper

def levelValue (s : Settings) : Nat :=
  match String.ofList (s.logLevel.toList.map capital) with
  | "CRITICAL" => 50
  | "FATAL" => 50
  | "ERROR" => 40
  | "WARNING" => 30
  | "WARN" => 30
  | "INFO" => 20
  | "DEBUG" => 10
  | "NOTSET" => 0
  | _ => 30

end Settings

end Settlement.Verifier
