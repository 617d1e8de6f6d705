import Settlement.Bytes
import Settlement.Text.Hex
import Settlement.Text.Printable

/-!
Quoted text, as messages show values: in single quotes, or in double quotes if the text has a
single quote and no double one. The quote in use, backslashes and invisible characters are escaped.
-/

namespace Settlement.Text

def hexDigits : Nat → Nat → List Char
  | 0, _ => []
  | k + 1, n => hexDigits k (n / 16) ++ [Hex.digit (n % 16)]

def escapeCode (c : Char) : List Char :=
  let n := c.toNat
  if n < 0x100 then '\\' :: 'x' :: hexDigits 2 n
  else if n < 0x10000 then '\\' :: 'u' :: hexDigits 4 n
  else '\\' :: 'U' :: hexDigits 8 n

def escape (quote : Char) (visible : Char → Bool) (c : Char) : List Char :=
  if c = quote ∨ c = '\\' then ['\\', c]
  else if c = '\n' then ['\\', 'n']
  else if c = '\r' then ['\\', 'r']
  else if c = '\t' then ['\\', 't']
  else if visible c then [c]
  else escapeCode c

def quoteFor (cs : List Char) : Char :=
  if cs.contains '\'' && !cs.contains '"' then '"' else '\''

def quoted (s : String) : String :=
  let q := quoteFor s.toList
  String.ofList (q :: s.toList.flatMap (escape q isPrintable) ++ [q])

def quotedBytes (bs : Bytes) : String :=
  let cs := bs.map fun b => Char.ofNat b.toNat
  let q := quoteFor cs
  String.ofList ('b' :: q :: cs.flatMap (escape q fun c => 0x20 ≤ c.toNat && c.toNat < 0x7f) ++ [q])

def codePoints (bs : Bytes) : List Nat :=
  (bs.foldl extend []).reverse
where
  extend (acc : List Nat) (b : UInt8) : List Nat :=
    match acc with
    | n :: ns => if 0x80 ≤ b ∧ b < 0xc0 then (n * 0x40 + b.toNat % 0x40) :: ns else lead b :: n :: ns
    | [] => [lead b]
  lead (b : UInt8) : Nat :=
    if b < 0x80 then b.toNat
    else if b < 0xe0 then b.toNat % 0x20
    else if b < 0xf0 then b.toNat % 0x10
    else b.toNat % 8

def utf8 (n : Nat) : Bytes :=
  if n < 0x80 then [UInt8.ofNat n]
  else if n < 0x800 then [UInt8.ofNat (0xc0 + n / 0x40), UInt8.ofNat (0x80 + n % 0x40)]
  else if n < 0x10000 then
    [UInt8.ofNat (0xe0 + n / 0x1000), UInt8.ofNat (0x80 + n / 0x40 % 0x40), UInt8.ofNat (0x80 + n % 0x40)]
  else
    [UInt8.ofNat (0xf0 + n / 0x40000), UInt8.ofNat (0x80 + n / 0x1000 % 0x40),
     UInt8.ofNat (0x80 + n / 0x40 % 0x40), UInt8.ofNat (0x80 + n % 0x40)]

def unfoldHalves (shown : Char → List Char) (bs : Bytes) : List Char :=
  (codePoints bs).flatMap fun n =>
    if 0xd800 ≤ n ∧ n < 0xe000 then '\\' :: 'u' :: hexDigits 4 n else shown (Char.ofNat n)

def quotedHalves (bs : Bytes) : String :=
  let q := quoteFor (unfoldHalves (fun c => [c]) bs)
  String.ofList (q :: unfoldHalves (escape q isPrintable) bs ++ [q])

end Settlement.Text
