import Settlement.Json.Reader
import Settlement.Json.Writable
import Settlement.Session

namespace Settlement.Rpc

inductive Error where
  | transport (method : String) (last : Option String)
  | badEndpoint (method url reason detail : String)
  | unusable (method reason detail : String)
  | notJson (method : String) (status : Nat) (body : String)
  | malformed (method : String) (body : Value)
  | reported (method text : String) (code data : Value)
  | notQuantity (method : String) (got : Value)
  | notData (method : String) (got : Value)
  | notHash (method : String) (got : Value)
  | quantity (e : Integer.LiteralError)
  | digits
  | overflow
  | pause (f : PauseFault)
  | unwritable (e : Json.WriteError)
  | tooDeep
  | timedOut (hash : Value)

def shownLength : Nat := 256

def Error.message : Error → String
  | .transport method last => method ++ ": transport failed: " ++ last.getD "None"
  | .badEndpoint method url _ _ => method ++ ": bad endpoint " ++ Text.quoted url
  | .unusable method reason _ => method ++ ": " ++ reason
  | .notJson method status body =>
    method ++ s!": non-JSON response (HTTP {status}): " ++ String.ofList (body.toList.take shownLength)
  | .malformed method _ => method ++ ": malformed response"
  | .reported method text _ _ => method ++ ": " ++ text
  | .notQuantity method got => method ++ ": expected a hex quantity, got " ++ got.render
  | .notData method got => method ++ ": expected hex data, got " ++ got.render
  | .notHash method got => method ++ ": expected a hash, got " ++ got.render
  | .quantity e => e.message
  | .digits => "data is not hex"
  | .overflow => "int too large to convert to float"
  | .pause f => f.message
  | .unwritable e => e.message
  | .tooDeep => Platform.recursionError
  | .timedOut hash => "timed out waiting for receipt of " ++ hash.display

def Error.report : Error → String
  | .badEndpoint method url reason detail => Error.message (.badEndpoint method url reason detail) ++ ": " ++ detail
  | .unusable method reason detail => Error.message (.unusable method reason detail) ++ ": " ++ detail
  | e => e.message

def Error.code : Error → Value
  | .reported _ _ code _ => code
  | _ => .null

def Error.data : Error → Value
  | .reported _ _ _ data => data
  | .malformed _ body => body
  | _ => .null

def isTransient (status : Nat) : Bool :=
  [429, 502, 503, 504].contains status

def fieldOr (entries : List (Value × Value)) (name : String) (standard : Value) : Value :=
  (Value.field? entries name).getD standard

def readEnvelope (method : String) (entries : List (Value × Value)) : Except Error Value :=
  match fieldOr entries "error" .null with
  | .null => .ok (fieldOr entries "result" .null)
  | .mapping es =>
    .error (.reported method (fieldOr es "message" (.text "unknown error")).display
      (fieldOr es "code" .null) (fieldOr es "data" .null))
  | e => .error (.reported method e.display .null .null)

def dropByteOrderMark (body : String) : String :=
  match body.toList with
  | '\uFEFF' :: cs => String.ofList cs
  | _ => body

def readBody [Platform] (method : String) (status : Nat) (body : String) : Except Error Value :=
  match Json.parse (dropByteOrderMark body) with
  | .error .tooDeep => .error .tooDeep
  | .error _ => .error (.notJson method status body)
  | .ok (.mapping es) => readEnvelope method es
  | .ok v => .error (.malformed method v)

inductive Outcome where
  | final (result : Except Error Value)
  | again (problem : String)

def Outcome.ofExchange [Platform] (url method : String) : Exchange → Outcome
  | .response status body =>
    if isTransient status then .again s!"HTTP {status}" else .final (readBody method status body)
  | .transportFailed message => .again message
  | .badEndpoint reason detail => .final (.error (.badEndpoint method url reason detail))
  | .unusable reason detail => .final (.error (.unusable method reason detail))

end Settlement.Rpc
