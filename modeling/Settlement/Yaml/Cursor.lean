import Settlement.Text.Hex

namespace Settlement.Yaml

structure Cursor where
  rest : List Char
  index : Nat := 0
  line : Nat := 0
  column : Nat := 0

def endsLine (c : Char) : Bool :=
  c == '\n' || c == '\x85' || c == '\u2028' || c == '\u2029'

def isBreak (c : Char) : Bool :=
  c == '\r' || endsLine c

def isBlankOrEnd : Option Char → Bool
  | none => true
  | some c => c == ' ' || c == '\t' || isBreak c

def isSpaceOrEnd : Option Char → Bool
  | none => true
  | some c => c == ' ' || isBreak c

def isNameChar (c : Char) : Bool :=
  c.isAlphanum || c == '-' || c == '_'

def isAllowed (c : Char) : Bool :=
  let n := c.toNat
  n == 9 || n == 10 || n == 13 || (0x20 ≤ n && n ≤ 0x7e) || n == 0x85 || (0xa0 ≤ n && n ≤ 0xd7ff) ||
    (0xe000 ≤ n && n ≤ 0xfffd) || 0x10000 ≤ n

namespace Cursor

def peek (c : Cursor) : Option Char := c.rest.head?

def peekAt (c : Cursor) (k : Nat) : Option Char := c.rest[k]?

def advance (c : Cursor) : Cursor :=
  match c.rest with
  | [] => c
  | x :: xs =>
    if endsLine x || (x == '\r' && xs.head? != some '\n') then ⟨xs, c.index + 1, c.line + 1, 0⟩
    else ⟨xs, c.index + 1, c.line, if x == '\ufeff' then c.column else c.column + 1⟩

def advanceBy : Nat → Cursor → Cursor
  | 0, c => c
  | k + 1, c => advanceBy k c.advance

def span (p : Char → Bool) (c : Cursor) : List Char × Cursor :=
  let cs := c.rest.takeWhile p
  (cs, c.advanceBy cs.length)

def skip (p : Char → Bool) (c : Cursor) : Cursor :=
  (c.span p).2

def takeBreak (c : Cursor) : Option (Char × Cursor) :=
  match c.rest with
  | '\r' :: '\n' :: _ => some ('\n', c.advanceBy 2)
  | x :: _ =>
    if x == '\u2028' || x == '\u2029' then some (x, c.advance)
    else if isBreak x then some ('\n', c.advance)
    else none
  | [] => none

def atMark (c : Cursor) (mark : Char) : Bool :=
  c.rest.take 3 == [mark, mark, mark] && isBlankOrEnd (c.peekAt 3)

def atDocumentMark (c : Cursor) : Bool :=
  c.atMark '-' || c.atMark '.'

end Cursor

end Settlement.Yaml
