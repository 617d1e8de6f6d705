import Settlement.Number.Literal
import Settlement.Text.Quoted
import Settlement.Yaml.Cursor

/-!
The text of scalars: quoted, plain, and literal or folded blocks.
-/

namespace Settlement.Yaml

inductive Error where
  | character
  | token
  | syntaxError
  | composition
  -- more collections open at once, or merges within merges, than the interpreter admits
  | tooDeep
  | construction
  | codePoint
  -- the number of a character, or the unit of a sexagesimal fraction, beyond the machine's numbers
  | overflow
  | integer (e : Integer.LiteralError)
  | fraction
  | emptyNumber
  | calendar
  | date
  | truth
  deriving DecidableEq

abbrev Piece := Except Error (List Nat × Cursor)

def simpleEscape? (c : Char) : Option Nat :=
  (List.lookup c [('0', '\x00'), ('a', '\x07'), ('b', '\x08'), ('t', '\t'), ('\t', '\t'), ('n', '\n'), ('v', '\x0b'),
   ('f', '\x0c'), ('r', '\r'), ('e', '\x1b'), (' ', ' '), ('"', '"'), ('\\', '\\'), ('/', '/'),
   ('N', '\x85'), ('_', '\xa0'), ('L', '\u2028'), ('P', '\u2029')]).map Char.toNat

def escapeLength? (c : Char) : Option Nat :=
  [('x', 2), ('u', 4), ('U', 8)].lookup c

def quotedBreaks : Nat → List Nat → Cursor → Piece
  | 0, _, _ => .error .token
  | fuel + 1, acc, c =>
    if c.atDocumentMark then .error .token
    else
      let c := c.skip fun x => x == ' ' || x == '\t'
      match c.takeBreak with
      | some (b, c) => quotedBreaks fuel (b.toNat :: acc) c
      | none => .ok (acc, c)

def quotedWords (double : Bool) : Nat → List Nat → Cursor → Piece
  | 0, _, _ => .error .token
  | fuel + 1, acc, c =>
    let (cs, c) := c.span fun x => !(isBlankOrEnd (some x) || x == '\'' || x == '"' || x == '\\')
    let acc := (cs.map Char.toNat).reverse ++ acc
    match c.rest with
    | '\'' :: '\'' :: _ =>
      if double then quotedWords double fuel ('\''.toNat :: acc) c.advance
      else quotedWords double fuel ('\''.toNat :: acc) (c.advanceBy 2)
    | '\'' :: _ => if double then quotedWords double fuel ('\''.toNat :: acc) c.advance else .ok (acc, c)
    | '"' :: _ => if double then .ok (acc, c) else quotedWords double fuel ('"'.toNat :: acc) c.advance
    | '\\' :: _ =>
      if ¬ double then quotedWords double fuel ('\\'.toNat :: acc) c.advance
      else
        let c := c.advance
        match c.peek with
        | none => .error .token
        | some e =>
          match simpleEscape? e, escapeLength? e with
          | some x, _ => quotedWords double fuel (x :: acc) c.advance
          | none, some k =>
            let c := c.advance
            let ds := c.rest.take k
            match if ds.length = k then Hex.toNat? ds else none with
            | some n =>
              if n ≥ 0x80000000 then .error .overflow
              else if n ≥ 0x110000 then .error .codePoint
              else quotedWords double fuel (n :: acc) (c.advanceBy k)
            | none => .error .token
          | none, none =>
            match c.takeBreak with
            | some (_, c) => do
              let (acc, c) ← quotedBreaks (c.rest.length + 1) acc c
              quotedWords double fuel acc c
            | none => .error .token
    | _ => .ok (acc, c)

def quotedBlanks (acc : List Nat) (c : Cursor) : Piece :=
  let (blanks, c) := c.span fun x => x == ' ' || x == '\t'
  match c.takeBreak with
  | some (b, c) => do
    let (breaks, c) ← quotedBreaks (c.rest.length + 1) [] c
    let first := if b != '\n' then [b.toNat] else if breaks.isEmpty then [' '.toNat] else []
    pure (breaks ++ first ++ acc, c)
  | none => if c.rest.isEmpty then .error .token else .ok ((blanks.map Char.toNat).reverse ++ acc, c)

def quotedRest (quote : Char) : Nat → List Nat → Cursor → Piece
  | 0, _, _ => .error .token
  | fuel + 1, acc, c =>
    if c.peek = some quote then .ok (acc, c.advance)
    else do
      let (acc, c) ← quotedBlanks acc c
      let (acc, c) ← quotedWords (quote == '"') (c.rest.length + 1) acc c
      quotedRest quote fuel acc c

def quotedScalar (quote : Char) (c : Cursor) : Except Error (Bytes × Cursor) := do
  let c := c.advance
  let (acc, c) ← quotedWords (quote == '"') (c.rest.length + 1) [] c
  let (acc, c) ← quotedRest quote (c.rest.length + 1) acc c
  pure (acc.reverse.flatMap Text.utf8, c)

structure Gap where
  blanks : List Char
  cursor : Cursor
  broken : Bool

def plainBreaks : Nat → List Char → Cursor → Option (List Char) × Cursor
  | 0, acc, c => (some acc, c)
  | fuel + 1, acc, c =>
    if c.peek = some ' ' then plainBreaks fuel acc c.advance
    else match c.takeBreak with
      | some (b, c) => if c.atDocumentMark then (none, c) else plainBreaks fuel (b :: acc) c
      | none => (some acc, c)

def plainGap (c : Cursor) : Gap :=
  let (blanks, c) := c.span (· == ' ')
  match c.takeBreak with
  | some (b, c) =>
    if c.atDocumentMark then ⟨[], c, true⟩
    else match plainBreaks (c.rest.length + 1) [] c with
      | (none, c) => ⟨[], c, true⟩
      | (some breaks, c) =>
        let first := if b != '\n' then [b] else if breaks.isEmpty then [' '] else []
        ⟨first ++ breaks.reverse, c, true⟩
  | none => ⟨blanks, c, false⟩

def endsPlain (flow : Bool) (c : Char) (next : Option Char) : Bool :=
  isBlankOrEnd (some c) ||
    (c == ':' && (isBlankOrEnd next ||
      (flow && match next with
        | some x => [',', '[', ']', '{', '}'].contains x
        | none => false))) ||
    (flow && [',', '?', '[', ']', '{', '}'].contains c)

def plainWord (flow : Bool) : List Char → List Char
  | [] => []
  | c :: cs => if endsPlain flow c cs.head? then [] else c :: plainWord flow cs

/-- A plain scalar, with whether a line was begun behind its last word, and where it goes on.
Outside brackets its lines have to be indented by `indent`. -/
def plainScalar (flow : Bool) (indent : Int) :
    Nat → List Char → List Char → Bool → Cursor → String × Bool × Cursor
  | 0, acc, _, broken, c => (String.ofList acc.reverse, broken, c)
  | fuel + 1, acc, blanks, broken, c =>
    let word := if c.peek = some '#' then [] else plainWord flow c.rest
    if word.isEmpty then (String.ofList acc.reverse, broken, c)
    else
      let acc := word.reverse ++ (blanks.reverse ++ acc)
      let gap := plainGap (c.advanceBy word.length)
      if gap.blanks.isEmpty || gap.cursor.peek = some '#' || (!flow && decide ((gap.cursor.column : Int) < indent)) then
        (String.ofList acc.reverse, gap.broken, gap.cursor)
      else plainScalar flow indent fuel acc gap.blanks gap.broken gap.cursor

inductive Chomping where
  | clip
  | strip
  | keep
  deriving DecidableEq

def chomping? : Option Char → Option Chomping
  | some '+' => some .keep
  | some '-' => some .strip
  | _ => none

def indentDigit? : Option Char → Option Nat
  | some c => if '0' ≤ c ∧ c ≤ '9' then some (c.toNat - 48) else none
  | none => none

def blockHeader (c : Cursor) : Except Error (Chomping × Option Nat × Cursor) := do
  let (chomp, indent, c) := match chomping? c.peek, indentDigit? c.peek with
    | some ch, _ =>
      let c := c.advance
      match indentDigit? c.peek with
      | some k => (ch, some k, c.advance)
      | none => (ch, none, c)
    | none, some k =>
      let c := c.advance
      match chomping? c.peek with
      | some ch => (ch, some k, c.advance)
      | none => (Chomping.clip, some k, c)
    | none, none => (.clip, none, c)
  if indent = some 0 ∨ ¬ isSpaceOrEnd c.peek then throw .token
  pure (chomp, indent, c)

def ignoredLine (c : Cursor) : Except Error Cursor :=
  let c := c.skip (· == ' ')
  let c := if c.peek = some '#' then c.skip fun x => !isBreak x else c
  match c.takeBreak with
  | some (_, c) => .ok c
  | none => if c.rest.isEmpty then .ok c else .error .token

def leadingBreaks : Nat → List Char → Nat → Cursor → List Char × Nat × Cursor
  | 0, acc, width, c => (acc, width, c)
  | fuel + 1, acc, width, c =>
    if c.peek = some ' ' then
      let c := c.advance
      leadingBreaks fuel acc (max width c.column) c
    else match c.takeBreak with
      | some (b, c) => leadingBreaks fuel (b :: acc) width c
      | none => (acc, width, c)

def blockBreaks (indent : Nat) : Nat → List Char → Cursor → List Char × Cursor
  | 0, acc, c => (acc, c)
  | fuel + 1, acc, c =>
    if c.column < indent ∧ c.peek = some ' ' then blockBreaks indent fuel acc c.advance
    else match c.takeBreak with
      | some (b, c) => blockBreaks indent fuel (b :: acc) c
      | none => (acc, c)

def startsBlank : Option Char → Bool
  | some c => c == ' ' || c == '\t'
  | none => false

def blockLines (folded : Bool) (indent : Nat) :
    Nat → List Char → List Char → List Char → Cursor → List Char × List Char × List Char × Cursor
  | 0, acc, last, breaks, c => (acc, last, breaks, c)
  | fuel + 1, acc, last, breaks, c =>
    if c.column ≠ indent ∨ c.rest.isEmpty then (acc, last, breaks, c)
    else
      let flush := !startsBlank c.peek
      let (line, c) := c.span fun x => !isBreak x
      let acc := line.reverse ++ (breaks ++ acc)
      let (last, c) := match c.takeBreak with
        | some (b, c) => ([b], c)
        | none => ([], c)
      let (breaks, c) := blockBreaks indent (c.rest.length + 1) [] c
      if c.column = indent ∧ ¬ c.rest.isEmpty then
        let acc :=
          if folded && last == ['\n'] && flush && !startsBlank c.peek then
            if breaks.isEmpty then ' ' :: acc else acc
          else last ++ acc
        blockLines folded indent fuel acc [] breaks c
      else (acc, last, breaks, c)

def blockScalar (folded : Bool) (parent : Int) (c : Cursor) : Except Error (String × Cursor) := do
  let (chomp, given, c) ← blockHeader c.advance
  let c ← ignoredLine c
  let least := (max 1 (parent + 1)).toNat
  let (breaks, indent, c) := match given with
    | some k =>
      let (breaks, c) := blockBreaks (least + k - 1) (c.rest.length + 1) [] c
      (breaks, least + k - 1, c)
    | none =>
      let (breaks, width, c) := leadingBreaks (c.rest.length + 1) [] 0 c
      (breaks, max least width, c)
  let (acc, last, breaks, c) := blockLines folded indent (c.rest.length + 1) [] [] breaks c
  let acc := if chomp = .strip then acc else last ++ acc
  let acc := if chomp = .keep then breaks ++ acc else acc
  pure (String.ofList acc.reverse, c)

end Settlement.Yaml
