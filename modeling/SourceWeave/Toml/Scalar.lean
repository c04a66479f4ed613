import SourceWeave.Text.Fields
import SourceWeave.Text.Quoted
import SourceWeave.Toml.Value

/-!
# Numbers, dates and truth values in TOML

A value that is neither in quotes nor in brackets is a run of letters, digits and signs. The run as
a whole must be a truth value, a number, or a date, a time or both. A number must fit the widest of
the usual formats: 128 bits for a whole number, a double for one with a fraction or an exponent.
-/

namespace SourceWeave.Toml

/-- Tells whether a character can be part of a value that is not in quotes. -/
def isScalarChar (c : Char) : Bool :=
  c.isAlphanum || c == '+' || c == '-' || c == '_' || c == '.' || c == ':'

/-- The digits of a number without the underscores between them. An underscore must stand between
two digits. -/
def digitGroup? (isDigit : Char → Bool) (cs : List Char) : Option (List Char) :=
  let groups := Text.fields '_' cs
  if groups.all fun group => !group.isEmpty && group.all isDigit then some groups.flatten else none

/-- The number that decimal digits write. -/
def decimalValue (cs : List Char) : Nat :=
  cs.foldl (fun n c => 10 * n + (c.toNat - '0'.toNat)) 0

/-- The digits of a whole number, which has no zero in front. -/
def wholeDigits? (cs : List Char) : Option (List Char) :=
  match digitGroup? Char.isDigit cs with
  | some ('0' :: _ :: _) => none
  | digits? => digits?

/-- The exponent behind its letter: an optional sign and digits. -/
def exponent? : List Char → Option Int
  | '+' :: digits => (digitGroup? Char.isDigit digits).map fun group => (decimalValue group : Int)
  | '-' :: digits => (digitGroup? Char.isDigit digits).map fun group => -(decimalValue group : Int)
  | digits => (digitGroup? Char.isDigit digits).map fun group => (decimalValue group : Int)

/-- Tells whether a character starts an exponent. -/
def isExponentMark (c : Char) : Bool :=
  c == 'e' || c == 'E'

/-- The least number that a double cannot hold: what lies below it rounds to the largest double. -/
def doubleBound : Nat := Nat.pow 2 1024 - Nat.pow 2 970

/-- Tells whether the number that `digits` write, times a power of ten, fits a double. The digits
alone tell for all but a few powers. -/
def fitsDouble (digits : List Char) (power : Int) : Bool :=
  let significant := digits.dropWhile (· = '0')
  let places := (significant.length : Int) + power
  if significant.isEmpty || places < 309 then true
  else if 310 < places then false
  else if 0 ≤ power then decimalValue significant * Nat.pow 10 power.toNat < doubleBound
  else decimalValue significant < doubleBound * Nat.pow 10 (-power).toNat

/-- Reads what stands behind the decimal point of a number with these whole digits. -/
def fraction? (whole cs : List Char) : Option Value := do
  let digits ← digitGroup? Char.isDigit (cs.takeWhile fun c => !isExponentMark c)
  let power ← match cs.dropWhile fun c => !isExponentMark c with
    | [] => some 0
    | _ :: exponent => exponent? exponent
  if fitsDouble (whole ++ digits) (power - digits.length) then some .float else none

/-- Tells whether a whole number fits 128 bits, with or without a sign. -/
def fitsWide (n : Int) : Bool :=
  -Int.ofNat (Nat.pow 2 127) ≤ n && n < Int.ofNat (Nat.pow 2 128)

/-- A whole number that is not too large. -/
def integer? (n : Int) : Option Value :=
  if fitsWide n then some (.integer n) else none

/-- Reads a decimal number without its sign. -/
def decimal? (negative : Bool) (cs : List Char) : Option Value := do
  let isPart (c : Char) : Bool := c == '.' || isExponentMark c
  let digits ← wholeDigits? (cs.takeWhile fun c => !isPart c)
  match cs.dropWhile fun c => !isPart c with
  | [] =>
    let n : Int := decimalValue digits
    integer? (if negative then -n else n)
  | '.' :: fraction => fraction? digits fraction
  | _ :: exponent => do
    let power ← exponent? exponent
    if fitsDouble digits power then some .float else none

/-- Reads a number behind its sign. -/
def signed? (negative : Bool) (cs : List Char) : Option Value :=
  if cs = "inf".toList || cs = "nan".toList then some .float else decimal? negative cs

/-- Reads the digits of a number to another base. -/
def based? (base : Nat) (isDigit : Char → Bool) (cs : List Char) : Option Value := do
  let digits ← digitGroup? isDigit cs
  let value := digits.foldl (fun n c => base * n + (Text.hexValue? c).getD 0) 0
  integer? value

/-- Reads `count` decimal digits. -/
def fixedDigits? (count : Nat) (cs : List Char) : Option (Nat × List Char) :=
  let digits := cs.take count
  if digits.length = count && digits.all Char.isDigit then some (decimalValue digits, cs.drop count)
  else none

/-- What is left behind one of the marks. -/
def behindMark? (marks : List Char) : List Char → Option (List Char)
  | [] => none
  | c :: rest => if marks.contains c then some rest else none

/-- Tells whether a year has a day more. -/
def isLeapYear (year : Nat) : Bool :=
  year % 4 == 0 && (year % 100 != 0 || year % 400 == 0)

/-- How many days a month has. -/
def daysInMonth (year month : Nat) : Nat :=
  if month = 2 then (if isLeapYear year then 29 else 28)
  else if month = 4 || month = 6 || month = 9 || month = 11 then 30
  else 31

/-- Writes a number with at least `width` digits. -/
def padded (width n : Nat) : String :=
  let digits := Nat.toDigits 10 n
  String.ofList (List.replicate (width - digits.length) '0' ++ digits)

/-- Reads a date and writes it in the usual form. -/
def date? (cs : List Char) : Option (String × List Char) := do
  let (year, cs) ← fixedDigits? 4 cs
  let cs ← behindMark? ['-'] cs
  let (month, cs) ← fixedDigits? 2 cs
  let cs ← behindMark? ['-'] cs
  let (day, cs) ← fixedDigits? 2 cs
  if month < 1 || 12 < month || day < 1 || daysInMonth year month < day then none
  else some (padded 4 year ++ "-" ++ padded 2 month ++ "-" ++ padded 2 day, cs)

/-- Reads the fraction of a second, of which nine digits count. It is written without the zeros at
its end, but with one digit at least. -/
def secondFraction? (cs : List Char) : Option (String × List Char) :=
  match cs with
  | '.' :: rest =>
    let digits := rest.takeWhile Char.isDigit
    if digits.isEmpty then none
    else
      let kept := ((digits.take 9).reverse.dropWhile (· = '0')).reverse
      let shown := if kept.isEmpty then ['0'] else kept
      some ("." ++ String.ofList shown, rest.drop digits.length)
  | _ => some ("", cs)

/-- Reads the seconds of a time, which may be missing. -/
def seconds? (cs : List Char) : Option (String × List Char) :=
  match cs with
  | ':' :: rest => do
    let (second, rest) ← fixedDigits? 2 rest
    if 60 < second then none
    else
      let (fraction, rest) ← secondFraction? rest
      return (":" ++ padded 2 second ++ fraction, rest)
  | _ => some ("", cs)

/-- Reads a time of day and writes it in the usual form. -/
def time? (cs : List Char) : Option (String × List Char) := do
  let (hour, cs) ← fixedDigits? 2 cs
  let cs ← behindMark? [':'] cs
  let (minute, cs) ← fixedDigits? 2 cs
  if 23 < hour || 59 < minute then none
  else
    let (seconds, cs) ← seconds? cs
    return (padded 2 hour ++ ":" ++ padded 2 minute ++ seconds, cs)

/-- Reads the distance from universal time, to the end of the run. No distance counts as one to the
east. -/
def offset? : List Char → Option String
  | [] => some ""
  | ['Z'] => some "Z"
  | ['z'] => some "Z"
  | c :: rest => do
    if c != '+' && c != '-' then none
    else
      let (hour, rest) ← fixedDigits? 2 rest
      let rest ← behindMark? [':'] rest
      let (minute, rest) ← fixedDigits? 2 rest
      if 23 < hour || 59 < minute || !rest.isEmpty then none
      else
        let mark := if c = '-' && 0 < hour + minute then "-" else "+"
        return mark ++ padded 2 hour ++ ":" ++ padded 2 minute

/-- Reads a date, a time, or both. -/
def moment? (cs : List Char) : Option Value :=
  match date? cs with
  | some (date, []) => some (.moment date)
  | some (date, rest) => do
    let rest ← behindMark? ['T', 't', ' '] rest
    let (time, rest) ← time? rest
    let offset ← offset? rest
    return .moment (date ++ "T" ++ time ++ offset)
  | none =>
    match time? cs with
    | some (time, []) => some (.moment time)
    | _ => none

/-- Tells whether a run is written like a date or a time: its first digits end in a dash or a
colon. -/
def looksLikeMoment (cs : List Char) : Bool :=
  match cs.dropWhile Char.isDigit with
  | '-' :: _ => true
  | ':' :: _ => true
  | _ => false

/-- Reads a run of characters as a value. -/
def scalar? (cs : List Char) : Option Value :=
  match cs with
  | '+' :: rest => signed? false rest
  | '-' :: rest => signed? true rest
  | '0' :: 'x' :: rest => based? 16 (fun c => (Text.hexValue? c).isSome) rest
  | '0' :: 'o' :: rest => based? 8 (fun c => '0' ≤ c && c ≤ '7') rest
  | '0' :: 'b' :: rest => based? 2 (fun c => c = '0' || c = '1') rest
  | _ =>
    if cs = "true".toList then some (.boolean true)
    else if cs = "false".toList then some (.boolean false)
    else if looksLikeMoment cs then moment? cs
    else signed? false cs

/-- Tells whether a time follows a date behind a blank. -/
def timeFollows : List Char → Bool
  | ' ' :: a :: b :: ':' :: _ => a.isDigit && b.isDigit
  | _ => false

/-- Reads a value that is neither in quotes nor in brackets. -/
def readScalar (cs : List Char) : Option (Value × List Char) :=
  let run := cs.takeWhile isScalarChar
  let rest := cs.dropWhile isScalarChar
  if run.length = 10 && (date? run).isSome && timeFollows rest then
    let more := (rest.drop 1).takeWhile isScalarChar
    (scalar? (run ++ ' ' :: more)).map fun value => (value, rest.drop (more.length + 1))
  else (scalar? run).map fun value => (value, rest)

end SourceWeave.Toml
