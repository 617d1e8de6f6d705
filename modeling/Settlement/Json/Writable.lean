import Settlement.Number.Literal
import Settlement.Platform
import Settlement.Value

/-!
What keeps a value from being posted as JSON: the first fault in the order of its text.
-/

namespace Settlement.Json

inductive WriteError where
  | tooManyDigits
  | mistyped
  | notFinite
  | tooDeep
  -- half of a surrogate pair, which is noticed behind everything else
  | halves
  deriving DecidableEq

def WriteError.message : WriteError → String
  | .tooManyDigits => Integer.unwritable
  | .mistyped => "value is not JSON serializable"
  | .notFinite => "Out of range float values are not JSON compliant"
  | .tooDeep => Platform.recursionError
  | .halves => "surrogates not allowed"

mutual

def holdsHalves : Value → Bool
  | .halves _ => true
  | .list items => itemsHoldHalves items
  | .tuple items => itemsHoldHalves items
  | .mapping entries => fieldsHoldHalves entries
  | _ => false

def itemsHoldHalves : List Value → Bool
  | [] => false
  | v :: vs => holdsHalves v || itemsHoldHalves vs

def fieldsHoldHalves : List (Value × Value) → Bool
  | [] => false
  | (k, v) :: es => holdsHalves k || holdsHalves v || fieldsHoldHalves es

end

def checkInteger (n : Int) : Except WriteError Unit :=
  if Integer.isWritable n then .ok () else .error .tooManyDigits

section

variable [Platform]

def checkFloat : Binary64 → Except WriteError Unit
  | .finite _ _ _ => .ok ()
  | _ => if Platform.postsNonFinite then .ok () else .error .notFinite

def checkKey : Value → Except WriteError Unit
  | .null => .ok ()
  | .bool _ => .ok ()
  | .text _ => .ok ()
  | .halves _ => .ok ()
  | .int n => checkInteger n
  | .float x => checkFloat x
  | _ => .error .mistyped

mutual

def checkValue (depth : Nat) : Value → Except WriteError Unit
  | .null => .ok ()
  | .bool _ => .ok ()
  | .text _ => .ok ()
  | .halves _ => .ok ()
  | .int n => checkInteger n
  | .float x => checkFloat x
  | .list items => if depth = 0 then .error .tooDeep else checkItems (depth - 1) items
  | .tuple items => if depth = 0 then .error .tooDeep else checkItems (depth - 1) items
  | .mapping entries => if depth = 0 then .error .tooDeep else checkFields (depth - 1) entries
  | _ => .error .mistyped

def checkItems (depth : Nat) : List Value → Except WriteError Unit
  | [] => .ok ()
  | v :: vs => do
    checkValue depth v
    checkItems depth vs

def checkFields (depth : Nat) : List (Value × Value) → Except WriteError Unit
  | [] => .ok ()
  | (k, v) :: es => do
    checkKey k
    checkValue depth v
    checkFields depth es

end

def checkParams (above : Nat) (params : List Value) : Except WriteError Unit := do
  checkValue (Platform.jsonDepth - above) (.list params)
  if !Platform.postsHalves && itemsHoldHalves params then throw .halves

end

end Settlement.Json
