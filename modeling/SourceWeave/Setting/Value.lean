import SourceWeave.Text.Lowercase

/-!
# Values of options

An option's value is written as text. `OptionValue` says how the text of each kind of value is read
and what can be wrong with it.
-/

namespace SourceWeave

/-- What can be wrong with the text of an option's value. -/
inductive ValueFault where
  /-- Neither `before` nor `after`. -/
  | notAnOrder
  /-- Neither `onload` nor `onfinishup`. -/
  | notAStage
  /-- Neither `true` nor `false`. -/
  | notABoolean
  /-- No text at all where a number is expected. -/
  | noNumber
  /-- A character that is no digit. -/
  | invalidDigit
  /-- A number above the largest one allowed. -/
  | tooLarge
  /-- A number below the smallest one allowed. -/
  | tooSmall
deriving DecidableEq, Repr

/-- The wording of a fault in a value. -/
def ValueFault.message : ValueFault → String
  | .notAnOrder => "expected \x60before\x60 or \x60after\x60"
  | .notAStage => "expected \x60onload\x60 or \x60onfinishup\x60"
  | .notABoolean => "provided string was not \x60true\x60 or \x60false\x60"
  | .noNumber => "cannot parse integer from empty string"
  | .invalidDigit => "invalid digit found in string"
  | .tooLarge => "number too large to fit in target type"
  | .tooSmall => "number too small to fit in target type"

/-- A kind of value that an option can take. -/
class OptionValue (α : Type) where
  /-- Reads a value from its text. -/
  read : String → Except ValueFault α

/-- Reads decimal digits behind the number `value`, and stops with `beyond` as soon as the number is
above `limit`. -/
def readDigits (limit : Nat) (beyond : ValueFault) (value : Nat) :
    List Char → Except ValueFault Nat
  | [] => .ok value
  | c :: rest =>
    if c.isDigit then
      let next := 10 * value + (c.toNat - '0'.toNat)
      if limit < next then .error beyond else readDigits limit beyond next rest
    else .error .invalidDigit

/-- Reads a whole number without a sign, at least one digit long. -/
def readMagnitude (limit : Nat) (beyond : ValueFault) : List Char → Except ValueFault Nat
  | [] => .error .invalidDigit
  | digits => readDigits limit beyond 0 digits

/-- Reads a number from zero up to `largest`. A plus sign is allowed. -/
def readNatural (largest : Nat) : List Char → Except ValueFault Nat
  | [] => .error .noNumber
  | '+' :: digits => readMagnitude largest .tooLarge digits
  | digits => readMagnitude largest .tooLarge digits

/-- Reads a number between `-smallest` and `largest`. A sign is allowed. -/
def readSigned (smallest largest : Nat) : List Char → Except ValueFault Int
  | [] => .error .noNumber
  | '+' :: digits => (readMagnitude largest .tooLarge digits).map Int.ofNat
  | '-' :: digits => (readMagnitude smallest .tooSmall digits).map fun n => -Int.ofNat n
  | digits => (readMagnitude largest .tooLarge digits).map Int.ofNat

instance : OptionValue Bool where
  read text :=
    if text = "true" then .ok true
    else if text = "false" then .ok false
    else .error .notABoolean

instance : OptionValue UInt8 where
  read text := (readNatural 255 text.toList).map UInt8.ofNat

instance : OptionValue Int64 where
  read text := (readSigned (Nat.pow 2 63) (Nat.pow 2 63 - 1) text.toList).map Int64.ofInt

/-- Where the line transform of a plugin stands relative to the transforms of whole scripts. -/
inductive LineOrder where
  /-- In front of them. -/
  | before
  /-- Behind them. -/
  | after
deriving DecidableEq, Repr

/-- The name of a line order. -/
def LineOrder.label : LineOrder → String
  | .before => "before"
  | .after => "after"

instance : OptionValue LineOrder where
  read text :=
    let name := Text.lowercaseLatin text
    if name = "before" then .ok .before
    else if name = "after" then .ok .after
    else .error .notAnOrder

/-- The phase of a run in which a plugin works. -/
inductive Phase where
  /-- When a script is first taken in. New scripts may be created only then. -/
  | onLoad
  /-- When all scripts have been taken in, in their final order. -/
  | onFinishUp
deriving DecidableEq, Repr

/-- The name of a phase. -/
def Phase.label : Phase → String
  | .onLoad => "onload"
  | .onFinishUp => "onfinishup"

instance : OptionValue Phase where
  read text :=
    let name := Text.lowercaseLatin text
    if name = "onload" then .ok .onLoad
    else if name = "onfinishup" then .ok .onFinishUp
    else .error .notAStage

end SourceWeave
