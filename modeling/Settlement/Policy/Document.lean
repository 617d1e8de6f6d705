import Settlement.Json.Reader
import Settlement.Number.Conversion
import Settlement.Policy.Schedule
import Settlement.Yaml.Construct

/-!
Policies as documents. What a document leaves out keeps its standard value; an unknown price is
refused, an unknown limit passed over.
-/

namespace Settlement.Policy

inductive DocumentError where
  | unknownEntries (shown : List String)
  | conversion (e : Integer.ConversionError)
  | mistyped
  | unwritable
  | noValues
  deriving DecidableEq

def DocumentError.message : DocumentError → String
  | .unknownEntries shown => "unknown schedule entries: [" ++ String.intercalate ", " shown ++ "]"
  | .conversion e => e.message
  | .mistyped => "section of another type"
  | .unwritable => Integer.unwritable
  | .noValues => "section without values"

def UnitSchedule.toValue (s : UnitSchedule) : Value :=
  .object (Operation.all.map fun op => (op.name, .int (s.unit op)))

def limitsValue (l : SizeLimits) : Value :=
  .object [("max_public_inputs", .int l.maxPublicInputs), ("max_domain_size", .int l.maxDomainSize)]

def toValue (p : Policy) : Value :=
  .object
    [("schedule", UnitSchedule.toValue p.schedule),
     ("budget", match p.budget with | none => .null | some b => .int b),
     ("limits", limitsValue p.limits)]

def sectionNames : Value → Except DocumentError (List Value)
  | .mapping es => .ok (es.map (·.1))
  | .list items => if Value.areHashable items then .ok items else .error .mistyped
  | .set items => .ok items
  | .text s => .ok (s.toList.map fun c => .text (String.singleton c))
  | .halves bs => .ok ((Text.codePoints bs).map fun n => Json.textValue (Text.utf8 n))
  | .bytes bs => .ok (bs.map fun b => .int b.toNat)
  | _ => .error .mistyped

def isPrice (name : Value) : Bool :=
  match name with
  | .text s => (Operation.ofName? s).isSome
  | _ => false

def distinct (names : List Value) : List Value :=
  names.foldl (fun acc v => if acc.any (·.sameKey v) then acc else acc ++ [v]) []

def codePoints? : Value → Option (List Nat)
  | .text s => some (s.toList.map Char.toNat)
  | .halves bs => some (Text.codePoints bs)
  | _ => none

def isNumber : Value → Bool
  | .bool _ => true
  | .int _ => true
  | .float _ => true
  | _ => false

def extended? : Value → Option (Int × Int × Nat)
  | .float (.infinity negative) => some (if negative then -1 else 1, 0, 1)
  | .float x => x.toRatio?.map fun (a, b) => (0, a, b)
  | v => v.asKey?.map fun n => (0, n, 1)

def numberLess (a b : Value) : Bool :=
  match extended? a, extended? b with
  | some (s, m, k), some (t, n, l) => s < t || s == t && m * l < n * k
  | _, _ => false

mutual

/-- Whether a name comes before another; none if the two cannot be compared. -/
def less? : Value → Value → Option Bool
  | .tuple xs, .tuple ys => lessItems? xs ys
  | .bytes bs, .bytes cs => some (bs.map UInt8.toNat < cs.map UInt8.toNat)
  | .date m, .date n => if m.scale = n.scale then some (m.micros < n.micros) else none
  | a, b =>
    match codePoints? a, codePoints? b with
    | some xs, some ys => some (xs < ys)
    | none, none => if isNumber a && isNumber b then some (numberLess a b) else none
    | _, _ => none

def lessItems? : List Value → List Value → Option Bool
  | [], ys => some !ys.isEmpty
  | _ :: _, [] => some false
  | x :: xs, y :: ys => if x.sameKey y then lessItems? xs ys else less? x y

end

def sorted? (names : List Value) : Option (List Value) :=
  if names.length ≤ 1 then some names
  else if names.all fun a => names.all fun b => (less? a b).isSome then
    some (names.mergeSort fun a b => less? b a != some true)
  else none

mutual

def isWritable : Value → Bool
  | .int n => Integer.isWritable n
  | .tuple items => areWritable items
  | _ => true

def areWritable : List Value → Bool
  | [] => true
  | v :: vs => isWritable v && areWritable vs

end

def checkNames (names : List Value) : Except DocumentError Unit :=
  let unknown := distinct (names.filter fun v => !isPrice v)
  if unknown.isEmpty then .ok ()
  else match sorted? unknown with
    | some vs => .error (if areWritable vs then .unknownEntries (vs.map Value.render) else .unwritable)
    | none => .error .mistyped

def sectionEntries : Value → Except DocumentError (List (Value × Value))
  | .mapping es => .ok es
  | v => if v.isFalsy then .ok [] else .error .noValues

def convert (v : Value) : Except DocumentError Int :=
  (Integer.ofValue v).mapError .conversion

def setPrices (s : UnitSchedule) : List (Value × Value) → Except DocumentError UnitSchedule
  | [] => .ok s
  | (k, v) :: es =>
    match k with
    | .text name =>
      match Operation.ofName? name with
      | some op => do setPrices (s.set (← convert v) op) es
      | none => setPrices s es
    | _ => setPrices s es

def setLimits (l : SizeLimits) : List (Value × Value) → Except DocumentError SizeLimits
  | [] => .ok l
  | (k, v) :: es =>
    if k.isKey "max_public_inputs" then do
      setLimits { l with maxPublicInputs := ← convert v } es
    else if k.isKey "max_domain_size" then do
      setLimits { l with maxDomainSize := ← convert v } es
    else setLimits l es

def readSchedule (v : Value) : Except DocumentError UnitSchedule := do
  if ¬ v.isFalsy then checkNames (← sectionNames v)
  setPrices {} (← sectionEntries v)

def readLimits (v : Value) : Except DocumentError SizeLimits := do
  setLimits {} (← sectionEntries v)

def readBudget : Option Value → Except DocumentError (Option Int)
  | none => .ok Policy.standard.budget
  | some .null => .ok none
  | some v => do pure (some (← convert v))

def ofEntries (es : List (Value × Value)) : Except DocumentError Policy := do
  let part (name : String) : Value := (Value.field? es name).getD .null
  let schedule ← readSchedule (part "schedule")
  let limits ← readLimits (part "limits")
  let budget ← readBudget (Value.field? es "budget")
  pure { schedule, budget, limits }

inductive Source where
  | unset
  | missing (path : String)
  | unreadable (path : String)
  | file (path : String) (content : Bytes)

inductive LoadError where
  | missing (path : String)
  | notMapping (path : String)
  | unreadable
  | encoding
  | json (e : Json.ReadError)
  | yaml (e : Yaml.Error)
  | document (e : DocumentError)
  deriving DecidableEq

def LoadError.message : LoadError → String
  | .missing path => "policy file " ++ path ++ " not found"
  | .notMapping path => "policy file " ++ path ++ " must hold a mapping"
  | .unreadable => "policy file cannot be read"
  | .encoding => "policy file is not UTF-8"
  | .json _ => "policy file is not JSON"
  | .yaml _ => "policy file is not YAML"
  | .document e => e.message

def readText [Platform] (text : String) : Except LoadError Value :=
  match (text.toList.dropWhile Text.isBlank).head? with
  | some '\x7b' => (Json.parse text).mapError .json
  | _ => do
    let v ← (Yaml.load text).mapError .yaml
    pure (if v.isFalsy then .mapping [] else v)

def ofText [Platform] (path text : String) : Except LoadError Policy := do
  match ← readText text with
  | .mapping es => (ofEntries es).mapError .document
  | _ => throw (.notMapping path)

/-- The policy of a source. There is none without a path, nor for a missing file that may be missing;
the standard policy is then in force. -/
def load? [Platform] (source : Source) (missingOk : Bool) : Except LoadError (Option Policy) :=
  match source with
  | .unset => .ok none
  | .missing path => if missingOk then .ok none else .error (.missing path)
  | .unreadable _ => .error .unreadable
  | .file path content =>
    match String.fromUTF8? ⟨content.toArray⟩ with
    | none => .error .encoding
    | some text => do pure (some (← ofText path text))

end Settlement.Policy
