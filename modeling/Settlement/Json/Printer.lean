import Settlement.Text.Quoted
import Settlement.Value

namespace Settlement.Json

inductive Charset where
  | ascii
  | unicode
  deriving DecidableEq

def escape16 (n : Nat) : List Char :=
  '\\' :: 'u' :: Text.hexDigits 4 n

def escapeChar (cs : Charset) (c : Char) : List Char :=
  let n := c.toNat
  if c = '"' ∨ c = '\\' then ['\\', c]
  else if c = '\n' then ['\\', 'n']
  else if c = '\r' then ['\\', 'r']
  else if c = '\t' then ['\\', 't']
  else if n = 8 then ['\\', 'b']
  else if n = 12 then ['\\', 'f']
  else if n < 32 then escape16 n
  else if n < 127 ∨ cs = .unicode then [c]
  else if n < 0x10000 then escape16 n
  else escape16 (0xd800 + (n - 0x10000) / 0x400) ++ escape16 (0xdc00 + (n - 0x10000) % 0x400)

def quote (cs : Charset) (s : String) : String :=
  String.ofList ('"' :: s.toList.flatMap (escapeChar cs) ++ ['"'])

def quoteHalves (cs : Charset) (bs : Bytes) : String :=
  String.ofList ('"' :: Text.unfoldHalves (escapeChar cs) bs ++ ['"'])

def number : Binary64 → String
  | .nan => "NaN"
  | .infinity negative => if negative then "-Infinity" else "Infinity"
  | x => x.render

def quoteKey (cs : Charset) : Value → String
  | .text s => quote cs s
  | .halves bs => quoteHalves cs bs
  | .null => quote cs "null"
  | .bool b => quote cs (if b then "true" else "false")
  | .float x => quote cs (number x)
  | v => quote cs v.render

structure Style where
  charset : Charset
  indent : Option Nat
  comma : String
  colon : String

def Style.compact (cs : Charset) : Style := ⟨cs, none, ",", ":"⟩

def Style.indented (cs : Charset) : Style := ⟨cs, some 2, ",", ": "⟩

def Style.lineBreak (st : Style) (depth : Nat) : String :=
  match st.indent with
  | none => ""
  | some k => "\n" ++ String.ofList (List.replicate (k * depth) ' ')

def enclose (st : Style) (depth : Nat) (left right : String) (members : List String) : String :=
  if members.isEmpty then left ++ right
  else
    left ++ st.lineBreak (depth + 1) ++ String.intercalate (st.comma ++ st.lineBreak (depth + 1)) members ++
      st.lineBreak depth ++ right

mutual

def print (st : Style) (depth : Nat) : Value → String
  | .null => "null"
  | .bool b => if b then "true" else "false"
  | .int n => toString n
  | .float x => number x
  | .text s => quote st.charset s
  | .halves bs => quoteHalves st.charset bs
  | .list items => enclose st depth "[" "]" (printItems st (depth + 1) items)
  | .tuple items => enclose st depth "[" "]" (printItems st (depth + 1) items)
  | .mapping entries => enclose st depth "\x7b" "\x7d" (printFields st (depth + 1) entries)
  | _ => "null"

def printItems (st : Style) (depth : Nat) : List Value → List String
  | [] => []
  | v :: vs => print st depth v :: printItems st depth vs

def printFields (st : Style) (depth : Nat) : List (Value × Value) → List String
  | [] => []
  | (k, v) :: es => (quoteKey st.charset k ++ st.colon ++ print st depth v) :: printFields st depth es

end

def compact (v : Value) : String :=
  print (.compact .ascii) 0 v

def indented (cs : Charset) (v : Value) : String :=
  print (.indented cs) 0 v

end Settlement.Json
