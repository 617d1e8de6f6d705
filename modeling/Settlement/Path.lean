import Settlement.Bytes

/-!
Paths as text. Repeated slashes, single dots and a slash at the end carry no meaning; two dots stay.
-/

namespace Settlement

structure Path where
  root : String := ""
  parts : List String
  deriving DecidableEq

namespace Path

def rootOf : List Char → String
  | '/' :: '/' :: '/' :: _ => "/"
  | '/' :: '/' :: _ => "//"
  | '/' :: _ => "/"
  | _ => ""

def isPart (s : String) : Bool :=
  s != "" && s != "."

def ofString (s : String) : Path :=
  ⟨rootOf s.toList, (s.splitOn "/").filter isPart⟩

def toString (p : Path) : String :=
  if p.root = "" ∧ p.parts = [] then "." else p.root ++ String.intercalate "/" p.parts

def join (p : Path) (names : List String) : Path :=
  { p with parts := p.parts ++ names }

end Path

inductive FileState where
  | missing
  | unreadable
  | content (bytes : Bytes)

/-- What is found where only the given files exist, and the directories that they lie in. -/
def FileState.among (files : List (String × Bytes)) (path : String) : FileState :=
  match files.lookup path with
  | some bs => .content bs
  | none =>
    if path = "." ∨ path = "/" ∨ files.any (·.1.startsWith (path ++ "/")) then .unreadable else .missing

def FileState.content? : FileState → Option Bytes
  | .content bs => some bs
  | _ => none

end Settlement
