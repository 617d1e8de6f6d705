import Settlement.Number.Shortest
import Settlement.Text.Quoted

/-!
Values of dynamic type, as documents and callers hand them over, and the text by which messages show
them.
-/

namespace Settlement

inductive Moment.Scale where
  | day
  | unzoned
  | zoned
  deriving DecidableEq

structure Moment where
  shown : String
  scale : Moment.Scale
  micros : Int

inductive Value where
  | null
  | bool (b : Bool)
  | int (n : Int)
  | float (x : Binary64)
  | text (s : String)
  | bytes (bs : Bytes)
  | list (items : List Value)
  | mapping (entries : List (Value × Value))
  -- text with half of a surrogate pair, as the bytes that UTF-8 would give it
  | halves (bs : Bytes)
  | date (m : Moment)
  | set (items : List Value)
  | tuple (items : List Value)
  deriving Inhabited

namespace Value

def kind : Value → String
  | .null => "NoneType"
  | .bool _ => "bool"
  | .int _ => "int"
  | .float _ => "float"
  | .text _ => "str"
  | .halves _ => "str"
  | .bytes _ => "bytes"
  | .list _ => "list"
  | .mapping _ => "dict"
  | .set _ => "set"
  | .tuple _ => "tuple"
  | .date m => if m.scale = .day then "date" else "datetime"

mutual

def render : Value → String
  | .null => "None"
  | .bool b => if b then "True" else "False"
  | .int n => toString n
  | .float x => x.render
  | .text s => Text.quoted s
  | .halves bs => Text.quotedHalves bs
  | .bytes bs => Text.quotedBytes bs
  | .list items => "[" ++ String.intercalate ", " (renderItems items) ++ "]"
  | .mapping entries => "\x7b" ++ String.intercalate ", " (renderEntries entries) ++ "\x7d"
  | .set items =>
    if items.isEmpty then "set()" else "\x7b" ++ String.intercalate ", " (renderItems items) ++ "\x7d"
  | .tuple items =>
    match renderItems items with
    | [item] => "(" ++ item ++ ",)"
    | items => "(" ++ String.intercalate ", " items ++ ")"
  | .date m => m.shown

def renderItems : List Value → List String
  | [] => []
  | v :: vs => render v :: renderItems vs

def renderEntries : List (Value × Value) → List String
  | [] => []
  | (k, v) :: es => (render k ++ ": " ++ render v) :: renderEntries es

end

def display : Value → String
  | .text s => s
  | .halves bs => String.ofList (Text.unfoldHalves (fun c => [c]) bs)
  | v => v.render

def isFalsy : Value → Bool
  | .null => true
  | .bool b => !b
  | .int n => n == 0
  | .float (.finite _ m _) => m == 0
  | .float _ => false
  | .text s => s.isEmpty
  | .halves _ => false
  | .bytes bs => bs.isEmpty
  | .list items => items.isEmpty
  | .mapping entries => entries.isEmpty
  | .set items => items.isEmpty
  | .tuple items => items.isEmpty
  | .date _ => false

def asKey? : Value → Option Int
  | .bool b => some (if b then 1 else 0)
  | .int n => some n
  | .float x => x.toInt?
  | _ => none

def isKey (name : String) : Value → Bool
  | .text s => s == name
  | _ => false

def sameText : Value → Value → Bool
  | .text s, .text t => s == t
  | .halves bs, .halves cs => bs == cs
  | _, _ => false

mutual

/-- Whether two values are one key: numbers and truth values by their value, times by their instant, tuples
by their items. -/
def sameKey : Value → Value → Bool
  | .tuple xs, .tuple ys => sameKeys xs ys
  | .null, .null => true
  | .bytes bs, .bytes cs => bs == cs
  | .date m, .date n => m.scale == n.scale && m.micros == n.micros
  | .float x, .float y => x == y || x.isZero && y.isZero
  | v, w => v.sameText w || (v.asKey?.isSome && v.asKey? == w.asKey?)

def sameKeys : List Value → List Value → Bool
  | [], [] => true
  | v :: vs, w :: ws => sameKey v w && sameKeys vs ws
  | _, _ => false

end

mutual

def isHashable : Value → Bool
  | .list _ => false
  | .mapping _ => false
  | .set _ => false
  | .tuple items => areHashable items
  | _ => true

def areHashable : List Value → Bool
  | [] => true
  | v :: vs => isHashable v && areHashable vs

end

def field? (entries : List (Value × Value)) (name : String) : Option Value :=
  (entries.find? fun e => e.1.isKey name).map (·.2)

def object (fields : List (String × Value)) : Value :=
  .mapping (fields.map fun (k, v) => (.text k, v))

end Value

end Settlement
