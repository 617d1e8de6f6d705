import Settlement.Key.Basic

/-!
Loading keys from files, and the store of the one active key. A load that fails leaves the store as it
was.
-/

namespace Settlement

inductive KeyLoadError where
  | unreadable (path : String)
  | document (path : String) (e : Json.TypedError)
  | invalid (path : String) (e : KeyError)
  deriving DecidableEq

def KeyLoadError.message : KeyLoadError → String
  | .unreadable path => "cannot read verification key " ++ path
  | .document path _ => "invalid verification key document " ++ path
  | .invalid path e => "invalid verification key " ++ path ++ ": " ++ e.message

inductive LoadFailure where
  | load (e : KeyLoadError)
  | encoding
  deriving DecidableEq

namespace Key

def load (path : String) (content : Option Bytes) : Except LoadFailure Key :=
  match content with
  | none => .error (.load (.unreadable path))
  | some bs =>
    match KeyDocument.decode bs with
    | .error .encoding => .error .encoding
    | .error e => .error (.load (.document path e))
    | .ok doc => (ofDocument doc).mapError fun e => .load (.invalid path e)

end Key

inductive InstallError where
  | loader (e : LoadFailure)
  | alreadyInstalled
  deriving DecidableEq

structure KeyStore where
  active : Option Key := none

namespace KeyStore

def isInitialized (s : KeyStore) : Bool :=
  s.active.isSome

def get (s : KeyStore) : Except Rejection Key :=
  match s.active with
  | some k => .ok k
  | none => .error .uninitialized

/-- Installs what a loader gave. A failure of the loader comes before a key that is in the way. -/
def install (s : KeyStore) (loaded : Except LoadFailure Key) (replace : Bool) :
    Except InstallError (Key × KeyStore) :=
  match loaded with
  | .error e => .error (.loader e)
  | .ok k => if s.isInitialized && !replace then .error .alreadyInstalled else .ok (k, ⟨some k⟩)

end KeyStore

end Settlement
