import Settlement.Number.Literal
import Settlement.Value
import Settlement.Yaml.Resolve
import Settlement.Yaml.Scalar

namespace Settlement.Yaml

def bars (s : String) : List Char := s.toList.filter (· != '_')

def splitColons (cs : List Char) : List String :=
  (String.ofList cs).splitOn ":"

def intIn (base : Nat) (cs : List Char) : Except Error Int :=
  (Integer.parse base (String.ofList cs)).mapError .integer

def intOf (s : String) : Except Error Value := do
  let cs := bars s
  if cs.isEmpty then throw .emptyNumber
  let body := dropSign cs
  let n ← match body with
    | [] => throw .emptyNumber
    | ['0'] => pure 0
    | '0' :: 'b' :: rest => intIn 2 rest
    | '0' :: 'x' :: rest => intIn 16 rest
    | '0' :: _ => intIn 8 body
    | _ =>
      if body.contains ':' then do
        let parts ← (splitColons body).mapM fun p => intIn 10 p.toList
        pure (parts.foldl (fun acc n => acc * 60 + n) 0)
      else intIn 10 body
  pure (.int (if cs.head? = some '-' then -n else n))

def exponentOf : List Char → Option Int
  | [] => some 0
  | mark :: more =>
    let digits := dropSign more
    if mark = 'e' ∧ ¬ digits.isEmpty ∧ digits.all isDecimal then
      let n : Int := Integer.value 10 digits
      some (if more.head? = some '-' then -n else n)
    else none

def fractionOf (cs : List Char) : Except Error Binary64 :=
  let cs := Text.trim Text.isAsciiSpace (cs.map Integer.normalize)
  let negative := cs.head? = some '-'
  let body := dropSign cs
  if body = "inf".toList ∨ body = "infinity".toList then .ok (.infinity negative)
  else if body = "nan".toList then .ok .nan
  else
    let whole := body.takeWhile isDecimal
    let rest := body.dropWhile isDecimal
    let (places, rest) := match rest with
      | '.' :: more => (more.takeWhile isDecimal, more.dropWhile isDecimal)
      | _ => ([], rest)
    match exponentOf rest with
    | some e =>
      if whole.isEmpty ∧ places.isEmpty then .error .fraction
      else .ok (.ofDecimal negative (Integer.value 10 (whole ++ places)) (e - places.length))
    | none => .error .fraction

/-- The sum of parts, the last first, each worth sixty times the one behind it. The unit of a part has to
be a finite number. -/
def sexagesimalSum : Int → List Binary64 → Binary64 → Except Error Binary64
  | _, [], sum => .ok sum
  | unit, x :: xs, sum =>
    match Binary64.ofInt? unit with
    | none => .error .overflow
    | some u => sexagesimalSum (unit * 60) xs (sum.add (x.mul u))

def floatOf (s : String) : Except Error Value := do
  let cs := (bars s).map Char.toLower
  if cs.isEmpty then throw .emptyNumber
  let negative := cs.head? = some '-'
  let body := dropSign cs
  let signed (x : Binary64) : Value := .float (if negative then Binary64.neg x else x)
  if body = ".inf".toList then pure (signed (.infinity false))
  else if body = ".nan".toList then pure (.float .nan)
  else if body.contains ':' then do
    let parts ← (splitColons body).mapM fun p => fractionOf p.toList
    pure (signed (← sexagesimalSum 1 parts.reverse .zero))
  else do pure (signed (← fractionOf body))

def daysIn (year month : Nat) : Nat :=
  if month = 2 then
    if year % 4 = 0 ∧ (year % 100 ≠ 0 ∨ year % 400 = 0) then 29 else 28
  else if month = 4 ∨ month = 6 ∨ month = 9 ∨ month = 11 then 30
  else 31

def daysBefore (year month day : Nat) : Nat :=
  let y := year - 1
  let months := (List.range (month - 1)).foldl (fun days m => days + daysIn year (m + 1)) 0
  365 * y + y / 4 - y / 100 + y / 400 + months + (day - 1)

structure Clock where
  hour : Nat
  minute : Nat
  second : Nat
  fraction : List Char
  zone : List Char

def clockParts (cs : List Char) : Option Clock :=
  let cs := cs.dropWhile fun c => !c.isDigit
  match cs.dropWhile isDecimal with
  | ':' :: a :: b :: ':' :: c :: d :: rest =>
    let number (ds : List Char) : Nat := Integer.value 10 ds
    let (fraction, zone) := match rest with
      | '.' :: places => (places.takeWhile isDecimal, places.dropWhile isDecimal)
      | _ => ([], rest)
    some ⟨number (cs.takeWhile isDecimal), number [a, b], number [c, d], fraction,
      zone.dropWhile fun c => c == ' ' || c == '\t'⟩
  | _ => none

def Clock.micros (c : Clock) : Nat :=
  Integer.value 10 ((c.fraction ++ List.replicate 6 '0').take 6)

def Clock.offset? (c : Clock) : Option Int :=
  match c.zone with
  | [] => none
  | sign :: rest =>
    let hours := Integer.value 10 (rest.takeWhile isDecimal)
    let minutes := Integer.value 10 ((rest.dropWhile isDecimal).drop 1)
    let total : Int := 60 * hours + minutes
    some (if sign = '-' then -total else total)

def dayMinutes : Int := 1440

def Clock.exists (c : Clock) : Bool :=
  c.hour < 24 && c.minute < 60 && c.second < 60 &&
    match c.offset? with
    | none => true
    | some m => -dayMinutes < m && m < dayMinutes

def spanText (minutes : Int) : String :=
  let days := minutes / dayMinutes
  let seconds := 60 * (minutes % dayMinutes)
  let parts := (if days = 0 then [] else [s!"days={days}"]) ++ (if seconds = 0 then [] else [s!"seconds={seconds}"])
  "datetime.timedelta(" ++ String.intercalate ", " parts ++ ")"

def zoneText (minutes : Int) : String :=
  if minutes = 0 then "datetime.timezone.utc" else "datetime.timezone(" ++ spanText minutes ++ ")"

def Clock.text (c : Clock) : String :=
  let clock := [c.hour, c.minute] ++
    (if c.micros ≠ 0 then [c.second, c.micros] else if c.second ≠ 0 then [c.second] else [])
  let zone := match c.offset? with
    | some m => ", tzinfo=" ++ zoneText m
    | none => ""
  String.intercalate ", " (clock.map toString) ++ zone

def Clock.inMicros (c : Clock) : Int :=
  1000000 * (60 * (60 * c.hour + c.minute - c.offset?.getD 0) + c.second) + c.micros

def dateOf (s : String) : Except Error Value :=
  match dateParts (dropFinalBreak s).toList with
  | none => .error .date
  | some (y, m, d, rest) =>
    if ¬ (y.length = 4 ∧ shortNumber m ∧ shortNumber d ∧ (rest.isEmpty ∨ isClock rest)) then .error .date
    else
      let year := Integer.value 10 y
      let month := Integer.value 10 m
      let day := Integer.value 10 d
      if ¬ (1 ≤ year ∧ 1 ≤ month ∧ month ≤ 12 ∧ 1 ≤ day ∧ day ≤ daysIn year month) then .error .calendar
      else
        let dayText := s!"{year}, {month}, {day}"
        let dayMicros : Int := 86400000000 * (daysBefore year month day : Int)
        match clockParts rest with
        | none => .ok (.date ⟨"datetime.date(" ++ dayText ++ ")", .day, dayMicros⟩)
        | some c =>
          let scale := if c.offset?.isSome then Moment.Scale.zoned else .unzoned
          if c.exists then
            .ok (.date ⟨"datetime.datetime(" ++ dayText ++ ", " ++ c.text ++ ")", scale, dayMicros + c.inMicros⟩)
          else .error .calendar

def boolOf (s : String) : Except Error Value :=
  let s := String.ofList (s.toList.map Char.toLower)
  if trueWords.contains s then .ok (.bool true)
  else if falseWords.contains s then .ok (.bool false)
  else .error .truth

def sextet? (c : Char) : Option Nat :=
  if 'A' ≤ c ∧ c ≤ 'Z' then some (c.toNat - 65)
  else if 'a' ≤ c ∧ c ≤ 'z' then some (c.toNat - 71)
  else if c.isDigit then some (c.toNat + 4)
  else if c = '+' then some 62
  else if c = '/' then some 63
  else none

structure Pending where
  sextets : Nat := 0
  bits : Nat := 0
  pads : Nat := 0

/-- Other characters are passed over. Pads that complete a group end the text, fewer are passed over as
well. -/
def decodeSextets : Pending → Bytes → List Char → Option Bytes
  | p, acc, [] => if p.sextets = 0 then some acc.reverse else none
  | p, acc, c :: cs =>
    if c = '=' then
      if p.sextets < 2 then decodeSextets p acc cs
      else if p.sextets + p.pads + 1 ≥ 4 then some acc.reverse
      else decodeSextets { p with pads := p.pads + 1 } acc cs
    else match sextet? c with
      | none => decodeSextets p acc cs
      | some n =>
        match p.sextets with
        | 0 => decodeSextets ⟨1, n, 0⟩ acc cs
        | 1 => decodeSextets ⟨2, n % 16, 0⟩ (UInt8.ofNat (p.bits * 4 + n / 16) :: acc) cs
        | 2 => decodeSextets ⟨3, n % 4, 0⟩ (UInt8.ofNat (p.bits * 16 + n / 4) :: acc) cs
        | _ => decodeSextets {} (UInt8.ofNat (p.bits * 64 + n) :: acc) cs

def binaryOf (s : String) : Except Error Value :=
  if ¬ s.toList.all (·.toNat < 128) then .error .construction
  else match decodeSextets {} [] s.toList with
    | some bs => .ok (.bytes bs)
    | none => .error .construction

end Settlement.Yaml
