import HostedEvm.Abi.Encode
import HostedEvm.Abi.Misread
import HostedEvm.Text.Base
import HostedEvm.Text.Scan

set_option autoImplicit false

/-!
Values read from text.

Numbers may be decimal, or binary, octal or hexadecimal behind a mark, and may have a fraction, an
exponent and a unit of currency, which scale them by powers of ten. Byte strings are hexadecimal,
texts may be quoted, lists stand in brackets and tuples in parentheses. Lists may stand only so deep
within each other.
-/

namespace HostedEvm.Abi.Literal

/-- How a value is read from the front of a text. -/
abbrev Scanner (Result : Type) := List Char → Except Misread (Result × List Char)

/-- Scan something, and make something else of it. -/
def Scanner.map {Source Target : Type} (f : Source → Target) (scan : Scanner Source) :
    Scanner Target := fun text => do
  let (result, rest) ← scan text
  return (f result, rest)

/-- How many lists may stand around a value. -/
def nestingLimit : Nat := 79

/-- Whether a character is a letter without accents. -/
def isLetter (c : Char) : Bool := c.isAlpha

/-- A power of ten that fits a word. -/
def tenTo? (exponent : Nat) : Option Nat :=
  if exponent < 78 then some (Nat.pow 10 exponent) else none

def fits? (n : Nat) : Option Nat := if n ≤ Word.greatest.toNat then some n else none

/-- The digits of a number, in the base that their mark tells. -/
def scanDigits (text : List Char) : Option (Nat × List Char) :=
  let base? := match text with
    | '0' :: mark :: _ => Text.markedBase? mark
    | _ => none
  match base? with
  | some base =>
    let digits := (text.drop 2).takeWhile fun c => (Text.Hex.digitValue? c).isSome
    if digits.isEmpty then none
    else
      ((Text.natInBase? base digits).bind fits?).map fun n => (n, text.drop (2 + digits.length))
  | none =>
    let digits := text.takeWhile Text.isDecimalDigit
    ((Text.natOfDecimal? digits).bind fits?).map fun n => (n, text.drop digits.length)

/-- The digits behind a decimal point, if there is one. -/
def scanFraction : List Char → Option (List Char × List Char)
  | '.' :: rest =>
    let digits := rest.takeWhile Text.isDecimalDigit
    if digits.isEmpty then none else some (digits, rest.drop digits.length)
  | text => some ([], text)

/-- A whole number without leading zeros that fits 64 bits. Only zero takes no sign. -/
def scanExponentValue (text : List Char) : Option (Int × List Char) :=
  let (sign, unsigned) : Int × List Char := match text with
    | '-' :: rest => (-1, rest)
    | '+' :: rest => (1, rest)
    | rest => (1, rest)
  if unsigned.head? = some '0' then if unsigned = text then some (0, unsigned.drop 1) else none
  else
    let digits := unsigned.takeWhile Text.isDecimalDigit
    (Text.natOfDecimal? digits).bind fun n =>
      if n ≤ Int64.maxValue.toInt then some (sign * n, unsigned.drop digits.length) else none

/-- The exponent behind its mark. Text that is no exponent is left alone. -/
def scanExponent (text : List Char) : Int × List Char :=
  match text with
  | 'e' :: rest | 'E' :: rest => (scanExponentValue rest).getD (0, text)
  | _ => (0, text)

/-- The power of ten of a unit of currency. -/
def unitExponent? (name : String) : Option Int :=
  if name = "" || name = "wei" then some 0
  else if name = "gwei" || name = "nano" || name = "nanoether" then some 9
  else if name = "ether" then some 18
  else none

/-- A unit behind optional spaces. -/
def scanUnit (text : List Char) : Option (Int × List Char) :=
  let text := Text.skipBlanks text
  let letters := text.takeWhile isLetter
  (unitExponent? (String.ofList letters)).map fun exponent => (exponent, text.drop letters.length)

/-- The number with a whole part and a fraction, scaled by a power of ten that leaves no fraction.
Every intermediate result has to fit a word. -/
def scaled? (whole : Nat) (fraction : List Char) (exponent : Nat) : Option Nat :=
  if fraction.isEmpty then (tenTo? exponent).bind fun scale => fits? (whole * scale)
  else if fraction.length > exponent then none
  else do
    let part ← (Text.natOfDecimal? fraction).bind fits?
    let shift ← tenTo? fraction.length
    let shifted ← fits? (whole * shift)
    let joined ← fits? (shifted + part)
    let scale ← tenTo? (exponent - fraction.length)
    fits? (joined * scale)

/-- The power of ten that an exponent and a unit make together, which has to fit 64 bits with its
sign and must not be negative. -/
def joinedExponent (exponent unit : Int) : Except Misread Nat :=
  let power := exponent + unit
  if power > Int64.maxValue.toInt then .error (.breakdown .sum)
  else if power < 0 then .error .mismatch
  else .ok power.toNat

/-- An unsigned number of at most so many bits. -/
def scanUint (bits : Nat) : Scanner Nat := fun text => do
  let (whole, text) ← Misread.demand (scanDigits text)
  let (fraction, text) ← Misread.demand (scanFraction text)
  let (exponent, text) := scanExponent text
  let (unit, text) ← Misread.demand (scanUnit text)
  let power ← joinedExponent exponent unit
  let n ← Misread.demand (scaled? whole fraction power)
  if n < 1 <<< bits then return (n, text) else .error .mismatch

/-- A signed number as the word that encodes it. A positive one leaves a bit for the sign; the
magnitude of a negative one may take all bits. -/
def scanInt (bits : Nat) : Scanner Word := fun text =>
  match text with
  | '-' :: rest => do
    let (n, rest) ← scanUint bits rest
    if n ≤ 1 <<< 255 then return (-(BitVec.ofNat 256 n), rest) else .error .mismatch
  | _ => do
    let unsigned := match text with
      | '+' :: rest => rest
      | rest => rest
    let (n, rest) ← scanUint bits unsigned
    if n < 1 <<< (bits - 1) then return (BitVec.ofNat 256 n, rest) else .error .mismatch

def scanBool : Scanner Bool := fun text =>
  let letters := text.takeWhile isLetter
  let rest := text.drop letters.length
  if letters = "true".toList then .ok (true, rest)
  else if letters = "false".toList then .ok (false, rest)
  else .error .mismatch

/-- A byte string in hexadecimal. Only behind the mark may it be empty. -/
def scanHex : Scanner Bytes := fun text =>
  let unmarked := Text.Hex.unmarked text
  let digits := unmarked.takeWhile fun c => (Text.Hex.digitValue? c).isSome
  if digits.isEmpty && unmarked.length = text.length then .error .mismatch
  else do
    let bytes ← Misread.demand (Text.Hex.decodeDigits? digits)
    return (bytes, unmarked.drop digits.length)

/-- A byte string of a given length in hexadecimal. -/
def scanSized (size : Nat) : Scanner Bytes := fun text => do
  let (bytes, rest) ← scanHex text
  if bytes.length = size then return (bytes, rest) else .error .mismatch

/-- The text without trailing white space. -/
def trimEnd (text : List Char) : String :=
  String.ofList (text.reverse.dropWhile Text.isWhiteSpace).reverse

/-- Whether a character opens and closes a quoted text. -/
def isQuote (c : Char) : Bool := c.toNat = 34 || c.toNat = 39

/-- A text: between quotes, or up to the end of its place, which within a list or tuple is a comma
or the closing bracket. -/
def scanText (closing : Option Char) : Scanner String := fun text =>
  match text with
  | [] => .ok ("", [])
  | first :: rest =>
    if isQuote first then do
      let content := rest.takeWhile (· ≠ first)
      let rest ← Misread.demand (Text.expect? first (rest.drop content.length))
      return (String.ofList content, rest)
    else match closing with
      | none => .ok (trimEnd text, [])
      | some close =>
        let content := text.takeWhile fun c => c ≠ ',' && c ≠ close
        if content.isEmpty then .error .mismatch
        else .ok (trimEnd content, text.drop content.length)

/-- Values behind commas, as long as there are any. -/
def scanMore {Result : Type} (scan : Scanner Result) : (fuel : Nat) → Scanner (List Result)
  | 0, text => .ok ([], text)
  | fuel + 1, text =>
    match Text.expect? ',' text with
    | none => .ok ([], text)
    | some behind =>
      match scan (Text.skipBlanks behind) with
      | .ok (value, rest) => do
        let (values, rest) ← scanMore scan fuel rest
        return (value :: values, rest)
      | .error .mismatch => .ok ([], text)
      | .error (.breakdown cause) => .error (.breakdown cause)

/-- Values between brackets, separated by commas, where `depth` lists stand around the brackets. A
comma may stand behind the last value. -/
def scanList {Result : Type} (depth : Nat) (scan : Scanner Result) : Scanner (List Result) :=
  fun text => do
    let text ← Misread.demand (Text.expect? '[' text)
    let text := Text.skipBlanks text
    match Text.expect? ']' text with
    | some rest => return ([], rest)
    | none =>
      if nestingLimit ≤ depth then .error .mismatch
      else
        let (first, text) ← scan text
        let (others, text) ← scanMore scan text.length text
        let text := (Text.expect? ',' text).getD text
        let rest ← Misread.demand (Text.expect? ']' (Text.skipBlanks text))
        return (first :: others, rest)

mutual

/-- A value of a type, at a place that `closing` ends and `depth` lists stand around. -/
def scanValue : AbiType → (closing : Option Char) → (depth : Nat) → Scanner Value
  | .uint bits, _, _ => (scanUint bits).map fun n => .uint (BitVec.ofNat 256 n) bits
  | .int bits, _, _ => (scanInt bits).map (.int · bits)
  | .bool, _, _ => scanBool.map .bool
  | .address, _, _ => (scanSized 20).map fun content => .address (Bytes.toAddress content)
  | .fixedBytes size, _, _ =>
    (scanSized size).map fun content => .fixedBytes (Bytes.toWord (Bytes.padRight 32 content)) size
  | .function, _, _ =>
    (scanSized 24).map fun content => .function (BitVec.ofNat 192 (Bytes.toNat content))
  | .bytes, _, _ => scanHex.map .bytes
  | .string, closing, _ => (scanText closing).map .string
  | .array element, _, depth =>
    (scanList depth (scanValue element (some ']') (depth + 1))).map .array
  | .fixedArray element count, _, depth => fun text => do
    let (values, rest) ← scanList depth (scanValue element (some ']') (depth + 1)) text
    if values.length = count then return (.fixedArray values, rest) else .error .mismatch
  | .tuple parts, _, depth => fun text => do
    let text ← Misread.demand (Text.expect? '(' (Text.skipBlanks text))
    let (values, text) ← scanParts parts true depth text
    let rest ← Misread.demand (Text.expect? ')' (Text.skipBlanks text))
    return (.tuple values, rest)

/-- The parts of a tuple, separated by commas. -/
def scanParts : List AbiType → (isFirst : Bool) → (depth : Nat) → Scanner (List Value)
  | [], _, _ => fun text => .ok ([], text)
  | type :: rest, isFirst, depth => fun text => do
    let text ← Misread.demand <|
      if isFirst then some text else Text.expect? ',' (Text.skipBlanks text)
    let (value, text) ← scanValue type (some ')') depth (Text.skipBlanks text)
    let (values, text) ← scanParts rest false depth text
    return (value :: values, text)

end

/-- The value that a whole text spells. -/
def read (type : AbiType) (text : String) : Except Misread Value := do
  match ← scanValue type none 0 text.toList with
  | (value, []) => return value
  | _ => .error .mismatch

end HostedEvm.Abi.Literal
