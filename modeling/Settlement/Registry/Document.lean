import Settlement.Json.Printer
import Settlement.Json.Reader
import Settlement.Registry.Basic
import Settlement.Text.Blank
import Settlement.Text.Digit

/-!
Registries as documents. A document is checked as a whole: every fault is reported with the path to it,
and only a document without faults becomes a registry.
-/

namespace Settlement.Registry

inductive Fault where
  | missing
  | extraForbidden
  | modelType
  | listType
  | stringType
  | stringUnicode
  | invalidKey
  | valueError
  | intType
  | intParsing
  | intFromFloat
  | intParsingSize
  | finiteNumber
  | greaterThanEqual
  deriving DecidableEq

def Fault.name : Fault → String
  | .missing => "missing"
  | .extraForbidden => "extra_forbidden"
  | .modelType => "model_type"
  | .listType => "list_type"
  | .stringType => "string_type"
  | .stringUnicode => "string_unicode"
  | .invalidKey => "invalid_key"
  | .valueError => "value_error"
  | .intType => "int_type"
  | .intParsing => "int_parsing"
  | .intFromFloat => "int_from_float"
  | .intParsingSize => "int_parsing_size"
  | .finiteNumber => "finite_number"
  | .greaterThanEqual => "greater_than_equal"

structure Detail where
  path : List String
  fault : Fault
  deriving DecidableEq

def Detail.under (name : String) (d : Detail) : Detail :=
  { d with path := name :: d.path }

def fault (f : Fault) : List Detail := [⟨[], f⟩]

abbrev Checked (α : Type) := Except (List Detail) α

def under {α : Type} (name : String) (x : Checked α) : Checked α :=
  x.mapError (·.map (Detail.under name))

def faults {α : Type} : Checked α → List Detail
  | .ok _ => []
  | .error ds => ds

def plainInteger? (cs : List Char) : Option Int :=
  let (negative, digits) := match cs with
    | '-' :: rest => (true, rest)
    | _ => (false, cs)
  if digits.isEmpty ∨ ¬ digits.all Text.isAsciiDigit ∨ (digits.length > 1 ∧ digits.head? = some '0') then none
  else
    let n : Int := Integer.value 10 digits
    some (if negative then -n else n)

/-- The text without zeros in front, of which one is kept where nothing else stands before a point or
the end. Only digits, zeros with bars between them, or a minus may come first. -/
def dropZeros : List Char → Option (List Char)
  | [] => none
  | c :: cs =>
    if c = '-' ∨ ('1' ≤ c ∧ c ≤ '9') then some (c :: cs)
    else if c = '0' then go c cs
    else none
where
  go (last : Char) : List Char → Option (List Char)
    | [] => some [last]
    | c :: cs =>
      if c = '0' ∨ c = '_' then go c cs
      else if '1' ≤ c ∧ c ≤ '9' then some (c :: cs)
      else if c = '.' then some (last :: c :: cs)
      else none

def dropPlaces (cs : List Char) : List Char :=
  match cs.dropWhile (· != '.') with
  | '.' :: places => if places.all (· == '0') then cs.takeWhile (· != '.') else cs
  | _ => cs

def dropBars (cs : List Char) : List Char :=
  if cs.head? == some '_' ∨ ¬ Integer.wellSeparated cs then cs else cs.filter (· != '_')

/-- The integer that a text spells: blanks around it, a plus, zeros in front, single bars between
digits and a fraction of zeros are admitted. -/
def integerOfText? (s : String) : Option Int :=
  let cs := Text.trim Text.isSpace s.toList
  let unsigned := match cs with
    | '+' :: '-' :: _ => none
    | '+' :: rest => some rest
    | _ => some cs
  (plainInteger? s.toList).orElse fun _ => do
    let cs ← dropZeros (← unsigned)
    plainInteger? (dropBars (dropPlaces cs))

def natural (n : Int) : Checked Nat :=
  if 0 ≤ n then .ok n.toNat else .error (fault .greaterThanEqual)

def integerOfFraction (x : Binary64) : Checked Int :=
  match x with
  | .nan => .error (fault .finiteNumber)
  | .infinity _ => .error (fault .finiteNumber)
  | x =>
    match x.toInt? with
    | none => .error (fault .intFromFloat)
    | some n => if n.natAbs < Nat.pow 2 63 then .ok n else .error (fault .intParsingSize)

def checkChain : Value → Checked Nat
  | .int n => natural n
  | .bool b => .ok (if b then 1 else 0)
  | .float x => do natural (← integerOfFraction x)
  | .text s =>
    if s.utf8ByteSize > Integer.maxDigits then .error (fault .intParsingSize)
    else match integerOfText? s with
      | some n => natural n
      | none => .error (fault .intParsing)
  | .halves _ => .error (fault .stringUnicode)
  | _ => .error (fault .intType)

def checkExecutor [Platform] : Value → Checked Address
  | .text s => Address.ofText (fault .valueError) s
  | .halves _ => .error (fault .valueError)
  | _ => .error (fault .stringType)

abbrev Fields := List (Value × Value)

def extras (known : List String) (fields : Fields) : List Detail :=
  (fields.filter fun e => !known.any fun name => e.1.isKey name).map fun e =>
    ⟨[e.1.display], match e.1 with
      | .text _ => .extraForbidden
      | _ => .invalidKey⟩

def isUnicode (fields : Fields) : Bool :=
  fields.all fun e => match e.1 with
    | .halves _ => false
    | _ => true

def chainField (fields : Fields) : String × Checked Nat :=
  match Value.field? fields "chainId", Value.field? fields "chain_id" with
  | some v, _ => ("chainId", under "chainId" (checkChain v))
  | none, some v => ("chain_id", under "chain_id" (checkChain v))
  | none, none => ("chainId", under "chainId" (.error (fault .missing)))

def executorField [Platform] (fields : Fields) : Checked Address :=
  under "executor" (match Value.field? fields "executor" with
    | some v => checkExecutor v
    | none => .error (fault .missing))

def checkEntry [Platform] : Value → Checked (Nat × Address)
  | .mapping fields =>
    if !isUnicode fields then .error (fault .stringUnicode) else
    let (name, chain) := chainField fields
    let executor := executorField fields
    match chain, executor, extras [name, "executor"] fields with
    | .ok c, .ok a, [] => .ok (c, a)
    | _, _, more => .error (faults chain ++ faults executor ++ more)
  | _ => .error (fault .modelType)

def checkEntries [Platform] (start : Nat) : List Value → Checked Entries
  | [] => .ok []
  | v :: vs =>
    match under (toString start) (checkEntry v), checkEntries (start + 1) vs with
    | .ok e, .ok es => .ok (e :: es)
    | first, rest => .error (faults first ++ faults rest)

def checkList [Platform] : Value → Checked Entries
  -- no chain may occur twice, which is looked at only if all entries are valid
  | .list items => do
    let es ← checkEntries 0 items
    if (es.map (·.1)).Nodup then pure es else throw (fault .valueError)
  | _ => .error (fault .listType)

def checkDocument [Platform] : Value → Checked Entries
  | .mapping fields =>
    if !isUnicode fields then .error (fault .stringUnicode) else
    let entries := match Value.field? fields "entries" with
      | some v => under "entries" (checkList v)
      | none => .ok []
    match entries, extras ["entries"] fields with
    | .ok es, [] => .ok es
    | _, more => .error (faults entries ++ more)
  | _ => .error (fault .modelType)

inductive LoadError where
  | unreadable (path : String)
  | malformed (path : String)
  | invalid (details : List Detail)
  | tooManyDigits
  | encoding
  | tooDeep
  deriving DecidableEq

def LoadError.message : LoadError → String
  | .unreadable path => "cannot read registry " ++ path
  | .malformed path => "cannot read registry " ++ path
  | .invalid _ => "invalid registry document"
  | .tooManyDigits => "integer with too many digits"
  | .encoding => "registry file is not UTF-8"
  | .tooDeep => Platform.recursionError

def ofDocument [Platform] (v : Value) : Except LoadError Registry :=
  match checkDocument v with
  | .ok es => .ok (ofEntries es)
  | .error ds => .error (.invalid ds)

def load [Platform] (path : String) (content : Option Bytes) : Except LoadError Registry :=
  match content with
  | none => .error (.unreadable path)
  | some bs =>
    match String.fromUTF8? ⟨bs.toArray⟩ with
    | none => .error .encoding
    | some text =>
      match Json.parse text with
      | .error .malformed => .error (.malformed path)
      | .error (.tooManyDigits _) => .error .tooManyDigits
      | .error .tooDeep => .error .tooDeep
      | .ok v => ofDocument v

def entryValue (e : Nat × Address) : Value :=
  .object [("chainId", .int e.1), ("executor", .text e.2.checksum)]

def toDocument (r : Registry) : Value :=
  .object [("entries", .list (r.entries.map entryValue))]

inductive DumpError where
  | tooManyDigits
  deriving DecidableEq

def dump (r : Registry) : Except DumpError String :=
  if r.entries.all fun e => e.1 < Nat.pow 10 Integer.maxDigits then
    .ok (Json.indented .ascii r.toDocument ++ "\n")
  else .error .tooManyDigits

end Settlement.Registry
