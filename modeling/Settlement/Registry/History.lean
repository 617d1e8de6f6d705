import Settlement.Registry.Document

/-!
A registry over its life: executors set, looked up and removed, and whole registries read from documents in its place.
A document takes the place of the registry only if it can be read.
-/

namespace Settlement.Registry

inductive Step where
  | set (chain executor : Value)
  | get (chain : Value)
  | remove (chain : Value)
  | contains (chain : Value)
  | size
  | entries
  | document (v : Value)
  | load (path : String) (content : Option Bytes)

inductive Refusal where
  | set (e : SetError)
  | lookup (e : LookupError)
  | load (e : LoadError)

inductive Reply where
  | stored (executor : Address)
  | found (executor : Option Address)
  | removed (b : Bool)
  | contained (b : Bool)
  | size (n : Nat)
  | entries (es : Entries)
  | loaded (r : Registry)
  | refused (e : Refusal)

def replaceWith (r : Registry) (read : Except LoadError Registry) : Reply × Registry :=
  match read with
  | .ok read => (.loaded read, read)
  | .error e => (.refused (.load e), r)

def step [Platform] (r : Registry) : Step → Reply × Registry
  | .set chain executor =>
    match r.set chain executor with
    | .ok (a, r) => (.stored a, r)
    | .error e => (.refused (.set e), r)
  | .get chain =>
    match r.get chain with
    | .ok a => (.found a, r)
    | .error e => (.refused (.lookup e), r)
  | .remove chain =>
    match r.remove chain with
    | .ok (b, r) => (.removed b, r)
    | .error e => (.refused (.lookup e), r)
  | .contains chain =>
    match r.contains chain with
    | .ok b => (.contained b, r)
    | .error e => (.refused (.lookup e), r)
  | .size => (.size r.size, r)
  | .entries => (.entries r.entries, r)
  | .document v => r.replaceWith (ofDocument v)
  | .load path content => r.replaceWith (load path content)

def run [Platform] (r : Registry) : List Step → List (Step × Reply) × Registry
  | [] => ([], r)
  | a :: steps =>
    let (reply, r) := r.step a
    let (history, r) := r.run steps
    ((a, reply) :: history, r)

end Settlement.Registry
