import HostedEvm.Text.Hex
import HostedEvm.Text.Number
import HostedEvm.Text.Scan

set_option autoImplicit false

/-!
Texts and keys of a TOML document.

A text stands between quotes, on one line or on several. Between double quotes a backslash begins
an escape; between single quotes every character stands for itself.
-/

namespace HostedEvm.Toml

/-- How something is read from the front of a document. -/
abbrev Scanner (Result : Type) := List Char → Option (Result × List Char)

def doubleQuote : Char := Char.ofNat 34

def singleQuote : Char := Char.ofNat 39

/-- Whether a character may stand in a text or a comment as it is. -/
def isPrintable (c : Char) : Bool := c.toNat = 9 || (32 ≤ c.toNat && c.toNat ≠ 127)

/-- Leave out the end of a line. -/
def newline? : List Char → Option (List Char)
  | c :: rest =>
    if c.toNat = 10 then some rest
    else match rest with
      | d :: rest => if c.toNat = 13 ∧ d.toNat = 10 then some rest else none
      | [] => none
  | [] => none

/-- The document behind the comment at its front, if there is one. -/
def skipComment? : List Char → Option (List Char)
  | '#' :: rest =>
    let behind := rest.dropWhile isPrintable
    if behind.isEmpty || (newline? behind).isSome then some behind else none
  | text => some text

def ofCode? (digits : List Char) : Option Char :=
  ((Text.Hex.natOfDigits? digits).filter fun code => decide code.isValidChar).map Char.ofNat

/-- The character of an escape behind its backslash. -/
def scanEscape : Scanner Char
  | 'b' :: rest => some (Char.ofNat 8, rest)
  | 't' :: rest => some (Char.ofNat 9, rest)
  | 'n' :: rest => some (Char.ofNat 10, rest)
  | 'f' :: rest => some (Char.ofNat 12, rest)
  | 'r' :: rest => some (Char.ofNat 13, rest)
  | 'u' :: rest =>
    if rest.length < 4 then none else (ofCode? (rest.take 4)).map fun c => (c, rest.drop 4)
  | 'U' :: rest =>
    if rest.length < 8 then none else (ofCode? (rest.take 8)).map fun c => (c, rest.drop 8)
  | c :: rest => if c = doubleQuote ∨ c.toNat = 92 then some (c, rest) else none
  | [] => none

/-- The rest of a text between double quotes on one line. -/
def scanBasic : (fuel : Nat) → Scanner (List Char)
  | 0, _ => none
  | fuel + 1, text =>
    match text with
    | [] => none
    | c :: rest =>
      if c = doubleQuote then some ([], rest)
      else if c.toNat = 92 then do
        let (escaped, rest) ← scanEscape rest
        let (content, rest) ← scanBasic fuel rest
        return (escaped :: content, rest)
      else if isPrintable c then
        (scanBasic fuel rest).map fun (content, rest) => (c :: content, rest)
      else none

/-- The rest of a text between single quotes on one line. -/
def scanLiteral (text : List Char) : Option (List Char × List Char) :=
  let content := text.takeWhile fun c => c ≠ singleQuote && isPrintable c
  match text.drop content.length with
  | c :: rest => if c = singleQuote then some (content, rest) else none
  | [] => none

/-- The number of marks at the front of a document. -/
def countMarks (mark : Char) (text : List Char) : Nat := (text.takeWhile (· = mark)).length

/-- The end of a text on several lines at a run of marks: up to two of them belong to the text. -/
def closeLines? (mark : Char) (text : List Char) : Option (List Char × List Char) :=
  let count := min (countMarks mark text) 5
  if count < 3 then none else some (List.replicate (count - 3) mark, text.drop count)

/-- The document without blanks and at most `fuel` ends of lines at its front. -/
def skipBlankLines : (fuel : Nat) → List Char → List Char
  | 0, text => text
  | fuel + 1, text =>
    let text := Text.skipBlanks text
    match newline? text with
    | some rest => skipBlankLines fuel rest
    | none => text

/-- The document behind a backslash that ends a line, without the blank lines that follow. -/
def joinLines? (text : List Char) : Option (List Char) :=
  (newline? (Text.skipBlanks text)).map fun rest => skipBlankLines (rest.length + 1) rest

/-- The rest of a text on several lines, with escapes if the marks are double quotes. -/
def scanLines (mark : Char) : (fuel : Nat) → Scanner (List Char)
  | 0, _ => none
  | fuel + 1, text =>
    match closeLines? mark text with
    | some closed => some closed
    | none =>
      match newline? text, text with
      | some rest, _ =>
        (scanLines mark fuel rest).map fun (content, rest) => (Char.ofNat 10 :: content, rest)
      | none, [] => none
      | none, c :: rest =>
        if c.toNat = 92 && mark = doubleQuote then
          match joinLines? rest with
          | some rest => scanLines mark fuel rest
          | none => do
            let (escaped, rest) ← scanEscape rest
            let (content, rest) ← scanLines mark fuel rest
            return (escaped :: content, rest)
        else if isPrintable c then
          (scanLines mark fuel rest).map fun (content, rest) => (c :: content, rest)
        else none

def scanText (text : List Char) : Option (String × List Char) :=
  let written (result : Option (List Char × List Char)) : Option (String × List Char) :=
    result.map fun (content, rest) => (String.ofList content, rest)
  match text with
  | [] => none
  | mark :: rest =>
    if mark ≠ doubleQuote ∧ mark ≠ singleQuote then none
    else if countMarks mark text ≥ 3 then
      let rest := text.drop 3
      written (scanLines mark (rest.length + 1) ((newline? rest).getD rest))
    else if mark = doubleQuote then written (scanBasic (rest.length + 1) rest)
    else written (scanLiteral rest)

/-- Whether a character may stand in a key without quotes. -/
def isBareChar (c : Char) : Bool := c.isAlphanum || c = '_' || c = '-'

def scanKeyPart (text : List Char) : Option (String × List Char) :=
  let bare := text.takeWhile isBareChar
  if !bare.isEmpty then some (String.ofList bare, text.drop bare.length)
  else match text with
    | mark :: rest =>
      if mark = doubleQuote then
        (scanBasic (rest.length + 1) rest).map fun (content, rest) => (String.ofList content, rest)
      else if mark = singleQuote then
        (scanLiteral rest).map fun (content, rest) => (String.ofList content, rest)
      else none
    | [] => none

/-- A key: parts with dots between them, at most `fuel` of them. -/
def scanKeyWithin : (fuel : Nat) → Scanner (List String)
  | 0, _ => none
  | fuel + 1, text => do
    let (part, text) ← scanKeyPart (Text.skipBlanks text)
    match Text.skipBlanks text with
    | '.' :: rest =>
      let (parts, rest) ← scanKeyWithin fuel rest
      return (part :: parts, rest)
    | rest => return ([part], rest)

/-- How many parts a key may have. -/
def keyLimit : Nat := 79

def scanKey : Scanner (List String) := scanKeyWithin keyLimit

end HostedEvm.Toml
