import HostedEvm.Text.Base
import HostedEvm.Wire.Form

set_option autoImplicit false

/-!
Numbers, flags and dates of a TOML document.

Whole numbers are signed and fit 64 bits. A number with a fraction or an exponent is kept without
its value, and a date as a record of its text.
-/

namespace HostedEvm.Toml

/-- The digits of a number with underscores between them. -/
def spacedDigits? (isDigit : Char → Bool) : List Char → Option (List Char)
  | [] => none
  | [c] => if isDigit c then some [c] else none
  | c :: '_' :: rest => if isDigit c then (spacedDigits? isDigit rest).map (c :: ·) else none
  | c :: rest => if isDigit c then (spacedDigits? isDigit rest).map (c :: ·) else none

/-- The sign of a number and what stands behind it. -/
def splitSign : List Char → Int × List Char
  | '-' :: rest => (-1, rest)
  | '+' :: rest => (1, rest)
  | text => (1, text)

/-- Decimal digits without leading zeros. -/
def plainDigits? (text : List Char) : Option (List Char) :=
  (spacedDigits? Text.isDecimalDigit text).filter fun digits =>
    digits.length = 1 || digits.head? ≠ some '0'

/-- A whole number in a base whose digits are marked. -/
def marked? (base : Nat) (text : List Char) : Option Int :=
  let isDigit (c : Char) : Bool := (Text.Hex.digitValue? c).any (· < base)
  ((spacedDigits? isDigit text).bind (Text.natInBase? base)).map Int.ofNat

def integer? (text : List Char) : Option Int :=
  let value := match text with
    | '0' :: 'x' :: digits => marked? 16 digits
    | '0' :: 'o' :: digits => marked? 8 digits
    | '0' :: 'b' :: digits => marked? 2 digits
    | _ =>
      let (sign, digits) := splitSign text
      ((plainDigits? digits).bind Text.natOfDecimal?).map fun n => sign * n
  value.filter fun n => Int64.minValue.toInt ≤ n && n ≤ Int64.maxValue.toInt

/-- The exponent that a whole text spells. Without one it is zero. -/
def exponent? : List Char → Option Int
  | [] => some 0
  | c :: rest =>
    if c = 'e' ∨ c = 'E' then
      let (sign, digits) := splitSign rest
      ((spacedDigits? Text.isDecimalDigit digits).bind Text.natOfDecimal?).map fun n => sign * n
    else none

/-- A decimal number: the number that its digits spell, scaled by a power of ten. -/
structure Decimal where
  digits : List Char
  exponent : Int

/-- The number with a fraction or an exponent that a text spells without a sign. -/
def decimal? (text : List Char) : Option Decimal :=
  let isPart (c : Char) : Bool := Text.isDecimalDigit c || c = '_'
  let whole := text.takeWhile isPart
  (plainDigits? whole).bind fun digits =>
    match text.drop whole.length with
    | [] => none
    | '.' :: rest =>
      let places := rest.takeWhile isPart
      match spacedDigits? Text.isDecimalDigit places, exponent? (rest.drop places.length) with
      | some fraction, some exponent => some ⟨digits ++ fraction, exponent - fraction.length⟩
      | _, _ => none
    | behind => (exponent? behind).map fun exponent => ⟨digits, exponent⟩

/-- The least number that is rounded to infinity: half a unit in the last place above the greatest
number of 53 binary digits and an exponent of eleven bits. -/
def infinityBound : Nat := (1 <<< 1024) - (1 <<< 970)

/-- Whether a number is rounded to infinity. One that has more than 310 digits before the point is,
and one that has less than 309 is not. -/
def Decimal.isInfinite (decimal : Decimal) : Bool :=
  let digits := decimal.digits.dropWhile (· = '0')
  let value := (Text.natOfDecimal? digits).getD 0
  let places := digits.length + decimal.exponent
  if digits.isEmpty || places < 309 then false
  else if 310 < places then true
  else if decimal.exponent < 0 then
    infinityBound * Nat.pow 10 decimal.exponent.natAbs ≤ value
  else infinityBound ≤ value * Nat.pow 10 decimal.exponent.natAbs

/-- Whether a text is a number with a fraction or an exponent, or one of the special numbers. A
positive number that is too great is none, but a negative one is. -/
def isFloat (text : List Char) : Bool :=
  let (sign, unsigned) := splitSign text
  unsigned = "inf".toList || unsigned = "nan".toList ||
    (decimal? unsigned).any fun decimal => sign < 0 || !decimal.isInfinite

/-- The number that exactly `count` digits spell. -/
def fixedNumber? (count : Nat) (text : List Char) : Option Nat :=
  if text.length = count then Text.natOfDecimal? text else none

def daysOf (year month : Nat) : Nat :=
  if month = 2 then
    if year % 4 = 0 ∧ (year % 100 ≠ 0 ∨ year % 400 = 0) then 29 else 28
  else if month = 4 ∨ month = 6 ∨ month = 9 ∨ month = 11 then 30
  else 31

def isDate (text : List Char) : Bool :=
  match text with
  | [y₁, y₂, y₃, y₄, '-', m₁, m₂, '-', d₁, d₂] =>
    match fixedNumber? 4 [y₁, y₂, y₃, y₄], fixedNumber? 2 [m₁, m₂], fixedNumber? 2 [d₁, d₂] with
    | some year, some month, some day =>
      1 ≤ month && month ≤ 12 && 1 ≤ day && day ≤ daysOf year month
    | _, _, _ => false
  | _ => false

/-- Whether two digits spell a number below a bound. -/
def isBelow (bound : Nat) (digits : List Char) : Bool := (fixedNumber? 2 digits).any (· < bound)

def isTime (text : List Char) : Bool :=
  match text with
  | h₁ :: h₂ :: ':' :: m₁ :: m₂ :: ':' :: s₁ :: s₂ :: rest =>
    isBelow 24 [h₁, h₂] && isBelow 60 [m₁, m₂] && isBelow 61 [s₁, s₂] &&
      match rest with
      | [] => true
      | '.' :: digits => !digits.isEmpty && digits.all Text.isDecimalDigit
      | _ => false
  | _ => false

/-- Whether a text is a time of day with the distance from universal time behind it. -/
def isOffsetTime (text : List Char) : Bool :=
  let time := text.takeWhile fun c => Text.isDecimalDigit c || c = ':' || c = '.'
  isTime time &&
    match text.drop time.length with
    | ['Z'] | ['z'] => true
    | [sign, h₁, h₂, ':', m₁, m₂] =>
      (sign = '+' || sign = '-') && isBelow 24 [h₁, h₂] && isBelow 60 [m₁, m₂]
    | rest => rest.isEmpty

def isDateTime (text : List Char) : Bool :=
  isDate text || isTime text ||
    (isDate (text.take 10) &&
      match text.drop 10 with
      | c :: time => (c = 'T' || c = 't' || c = ' ') && isOffsetTime time
      | [] => false)

/-- The value that a run of characters spells, if it is no text. -/
def scalar? (text : List Char) : Option Form :=
  if text = "true".toList then some (.flag true)
  else if text = "false".toList then some (.flag false)
  else match integer? text with
    | some value => some (.number value)
    | none =>
      if isFloat text then some .fraction
      else if isDateTime text then some (.record [("datetime", .text (String.ofList text))])
      else none

/-- Whether a character may stand in a value that is no text. -/
def isScalarChar (c : Char) : Bool :=
  c.isAlphanum || c = '+' || c = '-' || c = '_' || c = '.' || c = ':'

/-- The characters of a value that is no text. A space may stand between a date and a time. -/
def scalarRun (text : List Char) : List Char :=
  let run := text.takeWhile isScalarChar
  match text.drop run.length with
  | ' ' :: rest =>
    let time := rest.takeWhile isScalarChar
    if isDate run && isOffsetTime time then run ++ ' ' :: time else run
  | _ => run

end HostedEvm.Toml
