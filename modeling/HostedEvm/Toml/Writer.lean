import HostedEvm.Breakdown
import HostedEvm.Toml.Text
import HostedEvm.Wire.Form

set_option autoImplicit false

/-!
Writing a TOML document of sections.

A text is written in the first style that shows it as it is: between double quotes, between single
quotes, between three double quotes, between three single quotes. If there is none, it is written
with escapes. To find the style, runs of quotes are counted in a byte.
-/

namespace HostedEvm.Toml

/-- The length of the longest run of a character. -/
def longestRun (mark : Char) (current : Nat) : List Char → Nat
  | [] => current
  | c :: rest =>
    if c = mark then longestRun mark (current + 1) rest
    else max current (longestRun mark 0 rest)

/-- Whether a character can only be written as an escape. -/
def needsEscape (c : Char) : Bool := (c.toNat < 32 && c.toNat ≠ 9 && c.toNat ≠ 10) || c.toNat = 127

/-- The four digits of the code of a character. -/
def codeDigits (code : Nat) : List Char :=
  [12, 8, 4, 0].map fun shift => (Text.Hex.digit ((code >>> shift) % 16)).toUpper

/-- A character of a text between double quotes. -/
def escaped (onLines : Bool) (c : Char) : List Char :=
  let backslash := Char.ofNat 92
  match c.toNat with
  | 8 => [backslash, 'b']
  | 9 => [backslash, 't']
  | 10 => if onLines then [c] else [backslash, 'n']
  | 12 => [backslash, 'f']
  | 13 => [backslash, 'r']
  | 92 => [backslash, backslash]
  | code => if needsEscape c then backslash :: 'u' :: codeDigits code else [c]

/-- The content of a text between double quotes, of which at most `allowed` stand in a row. -/
def escapedContent (onLines : Bool) (allowed : Nat) : (row : Nat) → List Char → List Char
  | _, [] => []
  | row, c :: rest =>
    if c = doubleQuote then
      if row < allowed then c :: escapedContent onLines allowed (row + 1) rest
      else Char.ofNat 92 :: c :: escapedContent onLines allowed 0 rest
    else escaped onLines c ++ escapedContent onLines allowed 0 rest

/-- A text on one line between double quotes. -/
def basic (content : List Char) : List Char :=
  doubleQuote :: escapedContent false 0 0 content ++ [doubleQuote]

def hasLines (content : List Char) : Bool := content.any fun c => c.toNat = 10

/-- The marks that open a text, alone on their line if the text has several. -/
def opening (mark : Char) (content : List Char) : List Char :=
  List.replicate 3 mark ++ if hasLines content then [Char.ofNat 10] else []

/-- A text between three double quotes each. -/
def basicLines (content : List Char) : List Char :=
  opening doubleQuote content ++ escapedContent true 2 0 content ++ List.replicate 3 doubleQuote

/-- A text on one line between single quotes. -/
def literal (content : List Char) : List Char := singleQuote :: content ++ [singleQuote]

/-- A text between three single quotes each. -/
def literalLines (content : List Char) : List Char :=
  opening singleQuote content ++ content ++ List.replicate 3 singleQuote

def writeText (text : String) : List Char :=
  let content := text.toList
  let doubles := longestRun doubleQuote 0 content
  let singles := longestRun singleQuote 0 content
  let onLines := hasLines content
  let hasBackslash := content.any fun c => c.toNat = 92
  if content.any needsEscape then if onLines then basicLines content else basic content
  else if !hasBackslash && doubles = 0 && !onLines then basic content
  else if singles = 0 && !onLines then literal content
  else if !hasBackslash && doubles ≤ 2 then basicLines content
  else if singles ≤ 2 then literalLines content
  else if onLines then basicLines content
  else basic content

/-- A value of a section, if it can be written. Whole numbers have to fit 63 bits and a sign. -/
def writeValue? : Form → Option (List Char)
  | .flag value => some (if value then "true".toList else "false".toList)
  | .number value =>
    if Int64.minValue.toInt ≤ value ∧ value ≤ Int64.maxValue.toInt then
      some (Text.signedDecimal value).toList
    else none
  | .text value => some (writeText value)
  | _ => none

/-- The lines of a section. What is missing is left out. -/
def writeFields? : List (String × Form) → Option (List Char)
  | [] => some []
  | (_, .null) :: rest => writeFields? rest
  | (key, form) :: rest => do
    let value ← writeValue? form
    let lines ← writeFields? rest
    return key.toList ++ " = ".toList ++ value ++ Char.ofNat 10 :: lines

def writeSection? (name : String) (form : Form) : Option (List Char) :=
  match form with
  | .record fields =>
    (writeFields? fields).map fun lines =>
      '[' :: name.toList ++ ']' :: Char.ofNat 10 :: lines
  | _ => none

/-- A document of sections, with an empty line between two of them. -/
def write? (form : Form) : Option String :=
  match form with
  | .record sections =>
    (sections.mapM fun entry => writeSection? entry.1 entry.2).map fun texts =>
      String.ofList ([Char.ofNat 10].intercalate texts)
  | _ => none

/-- Whether a text has more quotes in a row than a byte counts. -/
def hasLongRun (text : String) : Bool :=
  [doubleQuote, singleQuote].any fun mark => UInt8.size ≤ longestRun mark 0 text.toList

mutual

/-- What ends the writing of a document in the middle. -/
def breakdown? : Form → Option Breakdown
  | .text text => if hasLongRun text then some .sum else none
  | .list items => breakdownOfItems? items
  | .record fields => breakdownOfFields? fields
  | _ => none

/-- What ends the writing of several items in the middle. -/
def breakdownOfItems? : List Form → Option Breakdown
  | [] => none
  | item :: rest => (breakdown? item).or (breakdownOfItems? rest)

/-- What ends the writing of several fields in the middle. -/
def breakdownOfFields? : List (String × Form) → Option Breakdown
  | [] => none
  | (_, form) :: rest => (breakdown? form).or (breakdownOfFields? rest)

end

inductive WriteFault
  /-- Something in it has no place in a document. -/
  | unfit
  | breakdown (cause : Breakdown)

/-- The document of sections, all of which are laid out before the first is written. -/
def write (form : Form) : Except WriteFault String :=
  match write? form, breakdown? form with
  | none, _ => .error .unfit
  | some _, some cause => .error (.breakdown cause)
  | some text, none => .ok text

end HostedEvm.Toml
