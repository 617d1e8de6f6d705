import Settlement.Text.Hex

namespace Settlement.Yaml

inductive Kind where
  | bool
  | float
  | int
  | merge
  | null
  | timestamp
  | value
  | text
  deriving DecidableEq

def trueWords : List String :=
  ["yes", "Yes", "YES", "true", "True", "TRUE", "on", "On", "ON"]

def falseWords : List String :=
  ["no", "No", "NO", "false", "False", "FALSE", "off", "Off", "OFF"]

def nullWords : List String :=
  ["~", "null", "Null", "NULL", ""]

def isDecimal (c : Char) : Bool := c.isDigit

def isDecimalOrBar (c : Char) : Bool := c.isDigit || c == '_'

def dropSign (cs : List Char) : List Char :=
  match cs with
  | '+' :: rest => rest
  | '-' :: rest => rest
  | _ => cs

def sexagesimals : Nat → List Char → Option (List Char)
  | 0, _ => none
  | fuel + 1, cs =>
    let more (rest : List Char) : Option (List Char) :=
      match rest with
      | ':' :: _ => (sexagesimals fuel rest).orElse fun _ => some rest
      | _ => some rest
    match cs with
    | ':' :: a :: b :: rest =>
      if '0' ≤ a ∧ a ≤ '5' ∧ b.isDigit then more rest
      else if a.isDigit then more (b :: rest)
      else none
    | [':', a] => if a.isDigit then some [] else none
    | _ => none

def isSexagesimal (cs : List Char) : Bool :=
  match cs with
  | c :: rest =>
    c.isDigit && sexagesimals (rest.length + 1) (rest.dropWhile isDecimalOrBar) == some []
  | [] => false

def isInt (s : String) : Bool :=
  match dropSign s.toList with
  | '0' :: 'b' :: rest => !rest.isEmpty && rest.all fun c => c == '0' || c == '1' || c == '_'
  | '0' :: 'x' :: rest => !rest.isEmpty && rest.all fun c => Hex.isDigit c || c == '_'
  | ['0'] => true
  | '0' :: rest => rest.all fun c => ('0' ≤ c && c ≤ '7') || c == '_'
  | c :: rest => c.isDigit && (rest.all isDecimalOrBar || isSexagesimal (c :: rest))
  | [] => false

def isExponentOrEnd : List Char → Bool
  | [] => true
  | e :: sign :: rest =>
    (e == 'e' || e == 'E') && (sign == '+' || sign == '-') && !rest.isEmpty && rest.all isDecimal
  | [_] => false

def isFloat (s : String) : Bool :=
  let cs := s.toList
  let body := dropSign cs
  if [".inf", ".Inf", ".INF"].contains (String.ofList body) then true
  else if [".nan", ".NaN", ".NAN"].contains s then true
  else match cs with
    | '.' :: c :: rest => c.isDigit && isExponentOrEnd (rest.dropWhile isDecimalOrBar)
    | _ =>
      match body with
      | c :: rest =>
        c.isDigit &&
          match rest.dropWhile isDecimalOrBar with
          | '.' :: places => isExponentOrEnd (places.dropWhile isDecimalOrBar)
          | tail =>
            match sexagesimals (tail.length + 1) tail with
            | some ('.' :: places) => places.all isDecimalOrBar
            | _ => false
      | [] => false

def dateParts (cs : List Char) : Option (List Char × List Char × List Char × List Char) :=
  let year := cs.takeWhile isDecimal
  match cs.dropWhile isDecimal with
  | '-' :: rest =>
    let month := rest.takeWhile isDecimal
    match rest.dropWhile isDecimal with
    | '-' :: rest => some (year, month, rest.takeWhile isDecimal, rest.dropWhile isDecimal)
    | _ => none
  | _ => none

def shortNumber (cs : List Char) : Bool := cs.length == 1 || cs.length == 2

def isZoneOrEnd (cs : List Char) : Bool :=
  match cs.dropWhile fun c => c == ' ' || c == '\t' with
  | [] => cs.isEmpty
  | ['Z'] => true
  | sign :: rest =>
    (sign == '+' || sign == '-') && shortNumber (rest.takeWhile isDecimal) &&
      match rest.dropWhile isDecimal with
      | [] => true
      | [':', a, b] => a.isDigit && b.isDigit
      | _ => false

def isClock (cs : List Char) : Bool :=
  let afterMark := match cs with
    | 'T' :: rest => some rest
    | 't' :: rest => some rest
    | ' ' :: _ => some (cs.dropWhile fun c => c == ' ' || c == '\t')
    | '\t' :: _ => some (cs.dropWhile fun c => c == ' ' || c == '\t')
    | _ => none
  match afterMark with
  | none => false
  | some rest =>
    shortNumber (rest.takeWhile isDecimal) &&
      match rest.dropWhile isDecimal with
      | ':' :: a :: b :: ':' :: c :: d :: rest =>
        a.isDigit && b.isDigit && c.isDigit && d.isDigit &&
          (match rest with
            | '.' :: places => isZoneOrEnd (places.dropWhile isDecimal)
            | _ => isZoneOrEnd rest)
      | _ => false

def isTimestamp (s : String) : Bool :=
  match dateParts s.toList with
  | some (y, m, d, rest) =>
    y.length == 4 &&
      ((m.length == 2 && d.length == 2 && rest.isEmpty) || (shortNumber m && shortNumber d && isClock rest))
  | none => false

def dropFinalBreak (s : String) : String :=
  match s.toList.reverse with
  | '\n' :: cs => String.ofList cs.reverse
  | _ => s

def kindOf (text : String) : Kind :=
  let s := dropFinalBreak text
  if text == "\n" then .text
  else if trueWords.contains s || falseWords.contains s then .bool
  else if isFloat s then .float
  else if isInt s then .int
  else if s == "<<" then .merge
  else if nullWords.contains s then .null
  else if isTimestamp s then .timestamp
  else if s == "=" then .value
  else .text

def standardTag (name : String) : String := "tag:yaml.org,2002:" ++ name

def Kind.tag (k : Kind) : String :=
  standardTag <| match k with
    | .bool => "bool"
    | .float => "float"
    | .int => "int"
    | .merge => "merge"
    | .null => "null"
    | .timestamp => "timestamp"
    | .value => "value"
    | .text => "str"

end Settlement.Yaml
