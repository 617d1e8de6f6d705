import Settlement.Json.Reader
import Settlement.Yaml.Datum
import Settlement.Yaml.Node

/-!
The values of a document. A collection exists before its parts do, as it may be among them; it is filled
after all collections that were met before it.
-/

namespace Settlement.Yaml

inductive Shape where
  | list
  | pairs
  | set
  | mapping

def shape? (tag : String) : Option Shape :=
  List.lookup tag
    [(standardTag "seq", .list), (standardTag "omap", .pairs), (standardTag "pairs", .pairs),
     (standardTag "set", .set), (standardTag "map", .mapping)]

def scalarReader? (tag : String) : Option (String → Except Error Value) :=
  List.lookup tag
    [(standardTag "null", fun _ => .ok .null), (standardTag "bool", boolOf), (standardTag "int", intOf),
     (standardTag "float", floatOf), (standardTag "binary", binaryOf), (standardTag "timestamp", dateOf)]

inductive Datum where
  | scalar (v : Value)
  | collection (id : Nat)

inductive Parts where
  | list (items : List Datum)
  | pairs (items : List (Datum × Datum))
  | set (items : List Value)
  | mapping (entries : List (Value × Datum))

structure Task where
  shape : Shape
  node : Nat
  collection : Nat

structure Maker where
  nodes : Nodes
  made : List (Nat × Datum) := []
  collections : Array Parts := #[]
  tasks : List Task := []

namespace Maker

abbrev Make := StateT Maker (Except Error)

def nodeAt (nodes : Nodes) (id : Nat) : Node :=
  nodes.getD id default

def scalarText (nodes : Nodes) : Nat → Nat → Except Error Bytes
  | 0, _ => .error .tooDeep
  | depth + 1, id =>
    match (nodeAt nodes id).content with
    | .scalar text => .ok text
    | .sequence _ => .error .construction
    | .mapping entries =>
      match entries.find? fun e => (nodeAt nodes e.1).tag == Kind.value.tag with
      | some (_, v) => scalarText nodes depth v
      | none => .error .construction

def plainText (text : Bytes) : String :=
  String.ofList ((Text.codePoints text).map fun n => if 0xd800 ≤ n ∧ n < 0xe000 then '\ufffd' else Char.ofNat n)

def scalarOf [Platform] (nodes : Nodes) (id : Nat) : Except Error Value := do
  let n := nodeAt nodes id
  if n.tag = Kind.text.tag then
    pure (Json.textValue (← scalarText nodes Platform.mergeDepth id))
  else match scalarReader? n.tag with
    | none => throw .construction
    | some read =>
      let text ← scalarText nodes Platform.mergeDepth id
      match n.content with
      | .scalar _ => read (plainText text)
      | _ => if n.tag = Kind.timestamp.tag then throw .construction else read (plainText text)

def reserve (shape : Shape) (node : Nat) : Make Datum := do
  let s ← get
  let id := s.collections.size
  set { s with collections := s.collections.push (.list []), tasks := s.tasks ++ [Task.mk shape node id] }
  pure (.collection id)

def construct [Platform] (id : Nat) : Make Datum := do
  let s ← get
  match s.made.lookup id with
  | some d => pure d
  | none =>
    let d ← match shape? (nodeAt s.nodes id).tag with
      | some shape => reserve shape id
      | none => do pure (Datum.scalar (← scalarOf s.nodes id))
    modify fun s => { s with made := (id, d) :: s.made }
    pure d

def entriesOf (id : Nat) : Make (List (Nat × Nat)) := do
  match (nodeAt (← get).nodes id).content with
  | .mapping entries => pure entries
  | _ => throw .construction

def setEntries (id : Nat) (entries : List (Nat × Nat)) : Make Unit :=
  modify fun s => { s with nodes := s.nodes.modify id fun n => { n with content := .mapping entries } }

def takeMerge (id : Nat) : Make (Option Nat) := do
  let entries ← entriesOf id
  let nodes := (← get).nodes
  let merges (e : Nat × Nat) : Bool := (nodeAt nodes e.1).tag == Kind.merge.tag
  setEntries id (entries.eraseP merges)
  pure ((entries.find? merges).map (·.2))

def mergedEntries (flatten : Nat → Make Unit) (id : Nat) : Make (List (Nat × Nat)) := do
  let flattened (id : Nat) : Make (List (Nat × Nat)) := do
    let _ ← entriesOf id
    flatten id
    entriesOf id
  match (nodeAt (← get).nodes id).content with
  | .sequence items => do
    let parts ← items.mapM flattened
    pure parts.reverse.flatten
  | _ => flattened id

def mergeAll (flatten : Nat → Make Unit) (id : Nat) : Nat → Make (List (Nat × Nat))
  | 0 => pure []
  | fuel + 1 => do
    match ← takeMerge id with
    | none => pure []
    | some merged =>
      let entries ← mergedEntries flatten merged
      pure (entries ++ (← mergeAll flatten id fuel))

def spellKey (id : Nat) : Make Unit :=
  modify fun s => { s with nodes := s.nodes.modify id fun n =>
    if n.tag = Kind.value.tag then { n with tag := Kind.text.tag } else n }

def flatten : Nat → Nat → Make Unit
  -- merged entries come before the mapping's own, so that its own win
  | 0, _ => throw .tooDeep
  | depth + 1, id => do
    let merged ← mergeAll (flatten depth) id (← entriesOf id).length
    let entries := merged ++ (← entriesOf id)
    setEntries id entries
    entries.forM fun e => spellKey e.1

def constructPair [Platform] (e : Nat × Nat) : Make (Datum × Datum) := do
  let k ← construct e.1
  pure (k, ← construct e.2)

def setEntry {α : Type} (entries : List (Value × α)) (k : Value) (v : α) : List (Value × α) :=
  if entries.any (k.sameKey ·.1) then entries.map fun e => if k.sameKey e.1 then (e.1, v) else e
  else entries ++ [(k, v)]

def constructEntries [Platform] : List (Value × Datum) → List (Nat × Nat) → Make (List (Value × Datum))
  | acc, [] => pure acc
  | acc, (k, v) :: rest => do
    match ← construct k with
    | .collection _ => throw .construction
    | .scalar k =>
      let v ← construct v
      constructEntries (setEntry acc k v) rest

def constructMapping [Platform] (id : Nat) : Make (List (Value × Datum)) := do
  let _ ← entriesOf id
  flatten Platform.mergeDepth id
  constructEntries [] (← entriesOf id)

def itemsOf (id : Nat) : Make (List Nat) := do
  match (nodeAt (← get).nodes id).content with
  | .sequence items => pure items
  | _ => throw .construction

def pairOf [Platform] (id : Nat) : Make (Datum × Datum) := do
  match ← entriesOf id with
  | [e] => constructPair e
  | _ => throw .construction

def partsOf [Platform] (t : Task) : Make Parts :=
  match t.shape with
  | .list => do pure (.list (← (← itemsOf t.node).mapM construct))
  | .pairs => do pure (.pairs (← (← itemsOf t.node).mapM pairOf))
  | .set => do pure (.set ((← constructMapping t.node).map (·.1)))
  | .mapping => do pure (.mapping (← constructMapping t.node))

def fillAll [Platform] : Nat → Make Unit
  | 0 => pure ()
  | fuel + 1 => do
    match (← get).tasks with
    | [] => pure ()
    | t :: tasks =>
      modify fun s => { s with tasks }
      let parts ← partsOf t
      modify fun s => { s with collections := s.collections.modify t.collection fun _ => parts }
      fillAll fuel

def document [Platform] (root : Nat) : Make Datum := do
  -- every node is made once, so there are no more tasks than nodes
  let d ← construct root
  fillAll ((← get).nodes.size + 1)
  pure d

end Maker

/-- A value with its parts written out. A collection that is part of itself is followed so far only. -/
def unroll (collections : Array Parts) : Nat → Datum → Value
  | _, .scalar v => v
  | 0, .collection _ => .list []
  | fuel + 1, .collection id =>
    match collections.getD id (.list []) with
    | .list items => .list (items.map (unroll collections fuel))
    | .pairs items => .list (items.map fun (k, v) => .tuple [unroll collections fuel k, unroll collections fuel v])
    | .set items => .set items
    | .mapping entries => .mapping (entries.map fun (k, v) => (k, unroll collections fuel v))

def load [Platform] (text : String) : Except Error Value := do
  match ← compose text with
  | (none, _) => pure .null
  | (some root, nodes) =>
    let (d, s) ← (Maker.document root).run { nodes }
    pure (unroll s.collections (s.collections.size + 4) d)

end Settlement.Yaml
