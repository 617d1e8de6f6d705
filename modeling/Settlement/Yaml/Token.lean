import Settlement.Yaml.Scalar

/-!
The tokens of a YAML text. Block structure is found from indentation, and a scalar turns out to be a
key only when the colon behind it is met; so the tokens between are held back until then.
-/

namespace Settlement.Yaml

inductive Directive where
  | version (major : Int)
  | tag (handle tagPrefix : String)
  | other
  deriving DecidableEq

inductive Token where
  | streamEnd
  | directive (d : Directive)
  | documentStart
  | documentEnd
  | blockSequenceStart
  | blockMappingStart
  | blockEnd
  | flowSequenceStart
  | flowSequenceEnd
  | flowMappingStart
  | flowMappingEnd
  | blockEntry
  | flowEntry
  | key
  | value
  | alias (name : String)
  | anchor (name : String)
  | tag (handle : Option String) (suffix : String)
  | scalar (plain : Bool) (text : Bytes)
  deriving DecidableEq

/-- A token that may turn out to be a key. -/
structure PossibleKey where
  number : Nat
  required : Bool
  index : Nat
  line : Nat
  column : Nat

structure Lexer where
  cursor : Cursor
  done : Bool := false
  flowLevel : Nat := 0
  queue : List Token := []
  taken : Nat := 0
  indent : Int := -1
  indents : List Int := []
  keyAllowed : Bool := true
  keys : List (Nat × PossibleKey) := []

namespace Lexer

abbrev Scan := StateT Lexer (Except Error)

def ofString (s : String) : Lexer :=
  let cursor : Cursor := ⟨s.toList, 0, 0, 0⟩
  { cursor }

def emit (t : Token) : Scan Unit :=
  modify fun s => { s with queue := s.queue ++ [t] }

def advance (k : Nat) : Scan Unit :=
  modify fun s => { s with cursor := s.cursor.advanceBy k }

def allowKey (b : Bool) : Scan Unit :=
  modify fun s => { s with keyAllowed := b }

def dropKey (level : Nat) : Scan Unit :=
  modify fun s => { s with keys := s.keys.filter (·.1 != level) }

def dropStaleKeys : Scan Unit := do
  let s ← get
  let stale (k : PossibleKey) : Bool := k.line != s.cursor.line || s.cursor.index - k.index > 1024
  if s.keys.any fun (_, k) => stale k && k.required then throw .token
  set { s with keys := s.keys.filter fun (_, k) => !stale k }

def forgetKey : Scan Unit := do
  let s ← get
  match s.keys.lookup s.flowLevel with
  | some k => if k.required then throw .token else dropKey s.flowLevel
  | none => pure ()

def rememberKey : Scan Unit := do
  let s ← get
  if s.keyAllowed then
    forgetKey
    let k : PossibleKey := {
      number := s.taken + s.queue.length
      required := s.flowLevel == 0 && s.indent == s.cursor.column
      index := s.cursor.index
      line := s.cursor.line
      column := s.cursor.column }
    modify fun s => { s with keys := (s.flowLevel, k) :: s.keys }

def unwind (column : Int) : Scan Unit := do
  let s ← get
  if s.flowLevel = 0 then
    let ended := ((s.indent :: s.indents).takeWhile (· > column)).length
    match (s.indent :: s.indents).drop ended with
    | indent :: indents =>
      set { s with queue := s.queue ++ List.replicate ended Token.blockEnd, indent, indents }
    | [] => pure ()

def pushIndent (column : Nat) : Scan Bool := do
  let s ← get
  if s.indent < column then
    set { s with indents := s.indent :: s.indents, indent := (column : Int) }
    pure true
  else pure false

def skipToToken : Nat → Scan Unit
  | 0 => pure ()
  | fuel + 1 => do
    let s ← get
    let c := s.cursor.skip (· == ' ')
    let c := if c.peek = some '#' then c.skip fun x => !isBreak x else c
    match c.takeBreak with
    | some (_, c) =>
      set { s with cursor := c, keyAllowed := s.keyAllowed || s.flowLevel == 0 }
      skipToToken fuel
    | none => set { s with cursor := c }

def fetchStreamEnd : Scan Unit := do
  unwind (-1)
  forgetKey
  modify fun s => { s with keyAllowed := false, keys := [], queue := s.queue ++ [.streamEnd], done := true }

def nameAt (c : Cursor) : Except Error (String × Cursor) :=
  let (cs, c) := c.span isNameChar
  if cs.isEmpty then .error .token else .ok (String.ofList cs, c)

def versionNumber (c : Cursor) : Except Error (Int × Cursor) := do
  let (cs, c) := c.span Char.isDigit
  if cs.isEmpty then throw .token
  let n ← (Integer.parse 10 (String.ofList cs)).mapError .integer
  pure (n, c)

def tagHandle (c : Cursor) : Except Error (String × Cursor) :=
  if c.peek ≠ some '!' then .error .token
  else if c.peekAt 1 = some ' ' then .ok ("!", c.advance)
  else
    let (cs, c) := c.advance.span isNameChar
    if c.peek = some '!' then .ok (String.ofList ('!' :: cs ++ ['!']), c.advance) else .error .token

def isUriChar (c : Char) : Bool :=
  c.isAlphanum || "-;/?:@&=+$,_.!~*'()[]".toList.contains c

def uriEscapes : Nat → Bytes → Cursor → Except Error (Bytes × Cursor)
  | 0, _, _ => .error .token
  | fuel + 1, acc, c =>
    match c.rest with
    | '%' :: a :: b :: _ =>
      match Hex.decode? [a, b] with
      | some bs => uriEscapes fuel (acc ++ bs) (c.advanceBy 3)
      | none => .error .token
    | '%' :: _ => .error .token
    | _ => .ok (acc, c)

def tagUri : Nat → List Char → Cursor → Except Error (String × Cursor)
  | 0, _, _ => .error .token
  | fuel + 1, acc, c => do
    let (cs, c) := c.span isUriChar
    let acc := acc ++ cs
    if c.peek = some '%' then
      let (bs, c) ← uriEscapes (c.rest.length + 1) [] c
      match String.fromUTF8? ⟨bs.toArray⟩ with
      | some s => tagUri fuel (acc ++ s.toList) c
      | none => throw .token
    else if acc.isEmpty then throw .token
    else pure (String.ofList acc, c)

def uriAt (c : Cursor) : Except Error (String × Cursor) :=
  tagUri (c.rest.length + 1) [] c

def directiveAt (c : Cursor) : Except Error (Directive × Cursor) := do
  let (name, c) ← nameAt c.advance
  if ¬ isSpaceOrEnd c.peek then throw .token
  let (d, c) ←
    if name = "YAML" then do
      let (major, c) ← versionNumber (c.skip (· == ' '))
      if c.peek ≠ some '.' then throw .token
      let (_, c) ← versionNumber c.advance
      if ¬ isSpaceOrEnd c.peek then throw .token
      pure (Directive.version major, c)
    else if name = "TAG" then do
      let (handle, c) ← tagHandle (c.skip (· == ' '))
      if c.peek ≠ some ' ' then throw .token
      let (uri, c) ← uriAt (c.skip (· == ' '))
      if ¬ isSpaceOrEnd c.peek then throw .token
      pure (Directive.tag handle uri, c)
    else pure (Directive.other, c.skip fun x => !isBreak x)
  let c ← ignoredLine c
  pure (d, c)

def fetchDirective : Scan Unit := do
  unwind (-1)
  forgetKey
  allowKey false
  let s ← get
  let (d, c) ← directiveAt s.cursor
  set { s with cursor := c, queue := s.queue ++ [Token.directive d] }

def fetchDocumentMark (t : Token) : Scan Unit := do
  unwind (-1)
  forgetKey
  allowKey false
  advance 3
  emit t

def fetchFlowStart (t : Token) : Scan Unit := do
  rememberKey
  modify fun s => { s with flowLevel := s.flowLevel + 1, keyAllowed := true }
  advance 1
  emit t

def fetchFlowEnd (t : Token) : Scan Unit := do
  forgetKey
  modify fun s => { s with flowLevel := s.flowLevel - 1, keyAllowed := false }
  advance 1
  emit t

def fetchFlowEntry : Scan Unit := do
  allowKey true
  forgetKey
  advance 1
  emit .flowEntry

def beginBlock (t : Token) : Scan Unit := do
  let s ← get
  if s.flowLevel = 0 then
    if ¬ s.keyAllowed then throw .token
    if ← pushIndent s.cursor.column then emit t

def fetchBlockEntry : Scan Unit := do
  beginBlock .blockSequenceStart
  allowKey true
  forgetKey
  advance 1
  emit .blockEntry

def fetchKey : Scan Unit := do
  beginBlock .blockMappingStart
  modify fun s => { s with keyAllowed := s.flowLevel == 0 }
  forgetKey
  advance 1
  emit .key

def insertBefore (number : Nat) (ts : List Token) : Scan Unit :=
  modify fun s =>
    let k := number - s.taken
    { s with queue := s.queue.take k ++ ts ++ s.queue.drop k }

def fetchValue : Scan Unit := do
  let s ← get
  match s.keys.lookup s.flowLevel with
  | some k =>
    dropKey s.flowLevel
    let starts ← if s.flowLevel = 0 then pushIndent k.column else pure false
    insertBefore k.number (if starts then [.blockMappingStart, .key] else [.key])
    allowKey false
  | none =>
    beginBlock .blockMappingStart
    modify fun s => { s with keyAllowed := s.flowLevel == 0 }
    forgetKey
  advance 1
  emit .value

def fetchName (make : String → Token) : Scan Unit := do
  rememberKey
  allowKey false
  let s ← get
  let (name, c) ← nameAt s.cursor.advance
  let follows : Bool := match c.peek with
    | none => true
    | some x => isBlankOrEnd (some x) || "?:,]\x7d%@\x60".toList.contains x
  if ¬ follows then throw .token
  set { s with cursor := c, queue := s.queue ++ [make name] }

def hasSecondMark (c : Cursor) : Bool :=
  (c.rest.drop 1).find? (fun x => x == '!' || isSpaceOrEnd (some x)) == some '!'

def tagAt (c : Cursor) : Except Error (Token × Cursor) := do
  let (t, c) ←
    if c.peekAt 1 = some '<' then do
      let (uri, c) ← uriAt (c.advanceBy 2)
      if c.peek ≠ some '>' then throw .token
      pure (Token.tag none uri, c.advance)
    else if isBlankOrEnd (c.peekAt 1) then pure (Token.tag none "!", c.advance)
    else do
      let (handle, c) ← if hasSecondMark c then tagHandle c else pure ("!", c.advance)
      let (uri, c) ← uriAt c
      pure (Token.tag (some handle) uri, c)
  if ¬ isSpaceOrEnd c.peek then throw .token
  pure (t, c)

def fetchTag : Scan Unit := do
  rememberKey
  allowKey false
  let s ← get
  let (t, c) ← tagAt s.cursor
  set { s with cursor := c, queue := s.queue ++ [t] }

def fetchBlockScalar (folded : Bool) : Scan Unit := do
  allowKey true
  forgetKey
  let s ← get
  let (text, c) ← blockScalar folded s.indent s.cursor
  set { s with cursor := c, queue := s.queue ++ [Token.scalar false (.ofString text)] }

def fetchQuoted (quote : Char) : Scan Unit := do
  rememberKey
  allowKey false
  let s ← get
  let (text, c) ← quotedScalar quote s.cursor
  set { s with cursor := c, queue := s.queue ++ [Token.scalar false text] }

def fetchPlain : Scan Unit := do
  rememberKey
  let s ← get
  let (text, broken, c) :=
    plainScalar (s.flowLevel != 0) (s.indent + 1) (s.cursor.rest.length + 1) [] [] false s.cursor
  set { s with cursor := c, keyAllowed := broken, queue := s.queue ++ [Token.scalar true (.ofString text)] }

def startsPlain (flow : Bool) (c : Char) (next : Option Char) : Bool :=
  !(isBlankOrEnd (some c) || "-?:,[]\x7b\x7d#&*!|>'\"%@\x60".toList.contains c) ||
    (!isBlankOrEnd next && (c == '-' || (!flow && (c == '?' || c == ':'))))

def fetch : Scan Unit := do
  modify fun s =>
    if s.cursor.index = 0 ∧ s.cursor.peek = some '\ufeff' then { s with cursor := s.cursor.advance } else s
  skipToToken ((← get).cursor.rest.length + 1)
  dropStaleKeys
  unwind (← get).cursor.column
  let s ← get
  let flow := s.flowLevel != 0
  let next := s.cursor.peekAt 1
  match s.cursor.peek with
  | none => fetchStreamEnd
  | some c =>
    if c == '%' && s.cursor.column == 0 then fetchDirective
    else if c == '-' && s.cursor.column == 0 && s.cursor.atMark '-' then fetchDocumentMark .documentStart
    else if c == '.' && s.cursor.column == 0 && s.cursor.atMark '.' then fetchDocumentMark .documentEnd
    else if c == '[' then fetchFlowStart .flowSequenceStart
    else if c == '\x7b' then fetchFlowStart .flowMappingStart
    else if c == ']' then fetchFlowEnd .flowSequenceEnd
    else if c == '\x7d' then fetchFlowEnd .flowMappingEnd
    else if c == ',' then fetchFlowEntry
    else if c == '-' && isBlankOrEnd next then fetchBlockEntry
    else if c == '?' && (flow || isBlankOrEnd next) then fetchKey
    else if c == ':' && (flow || isBlankOrEnd next) then fetchValue
    else if c == '*' then fetchName .alias
    else if c == '&' then fetchName .anchor
    else if c == '!' then fetchTag
    else if c == '|' && !flow then fetchBlockScalar false
    else if c == '>' && !flow then fetchBlockScalar true
    else if c == '\'' || c == '"' then fetchQuoted c
    else if startsPlain flow c next then fetchPlain
    else throw .token

def needsMore : Scan Bool := do
  if (← get).done then pure false
  else if (← get).queue.isEmpty then pure true
  else
    dropStaleKeys
    let s ← get
    pure (s.keys.any fun (_, k) => k.number == s.taken)

def fill : Nat → Scan Unit
  | 0 => pure ()
  | fuel + 1 => do
    if ← needsMore then
      fetch
      fill fuel

def peek : Scan Token := do
  fill ((← get).cursor.rest.length + 2)
  match (← get).queue with
  | t :: _ => pure t
  | [] => pure .streamEnd

def next : Scan Token := do
  let t ← peek
  modify fun s => { s with queue := s.queue.drop 1, taken := s.taken + 1 }
  pure t

end Lexer

end Settlement.Yaml
