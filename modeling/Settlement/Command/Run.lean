import Settlement.Session

namespace Settlement.Command

inductive Ending (Fault : Type) where
  | exit (status : Nat)
  | usage
  | fault (f : Fault)
  deriving DecidableEq

def usageStatus : Nat := 2

def Ending.status {Fault : Type} : Ending Fault → Nat
  | .exit n => n
  | .usage => usageStatus
  | .fault _ => 1

abbrev Run (Fault α : Type) := ExceptT (Ending Fault) Session α

namespace Run

variable {Fault α : Type}

def ofSession (s : Session α) : Run Fault α :=
  ExceptT.lift s

def fail (status : Nat) (message : String) : Run Fault α := do
  ofSession (printError ("Error: " ++ message))
  throw (.exit status)

def stopAt (f : Fault) : Run Fault α :=
  throw (.fault f)

def session (r : Run Fault Unit) : Session (Ending Fault) := do
  match ← r.run with
  | .ok () => pure (.exit 0)
  | .error e => pure e

end Run

end Settlement.Command
