import HostedEvm.Abi.Interface
import HostedEvm.Text.Scan

set_option autoImplicit false

/-!
Declarations read from text.

A function is declared as `function name(params) external view returns (params)` and an event as
`event name(params) anonymous`, where all words are optional but the name. In an interface the first
word tells what is declared. Lists may stand only so deep within each other.
-/

namespace HostedEvm.Abi.Signature

/-- How something is read from the front of a text. -/
abbrev Parser (Result : Type) := List Char → Option (Result × List Char)

/-- How many lists may stand within each other. -/
def nestingLimit : Nat := 79

/-- Whether a character may begin a name. -/
def isNameStart (c : Char) : Bool := c.isAlpha || c = '_' || c = '$'

/-- Whether a character may stand in a name. -/
def isNameChar (c : Char) : Bool := isNameStart c || c.isDigit

def parseName : Parser String
  | c :: rest =>
    if isNameStart c then
      some (String.ofList (c :: rest.takeWhile isNameChar), rest.dropWhile isNameChar)
    else none
  | [] => none

/-- The text behind a word that may stand there behind blanks. -/
def skipWord? (word : String) (text : List Char) : Option (List Char) :=
  Text.expectWord? word (Text.skipBlanks text)

/-- The text behind one of several words, if one stands there behind blanks. -/
def skipAnyWord? (words : List String) (text : List Char) : Option (List Char) :=
  words.findSome? fun word => skipWord? word text

/-- The name behind blanks, which is empty if none stands there. -/
def nextName (text : List Char) : String × List Char :=
  let text := Text.skipBlanks text
  (parseName text).getD ("", text)

/-- The name of a type with its width written out. -/
def rootName (name : String) : String :=
  if name = "uint" then "uint256" else if name = "int" then "int256" else name

/-- What a name within a library stands for, which can only be an enumeration. -/
def enumerationName : String := "uint8"

def parseRoot : Parser String := fun text => do
  let (name, rest) ← parseName text
  match rest with
  | '.' :: member => return (enumerationName, ((parseName member).map Prod.snd).getD member)
  | _ => return (rootName name, rest)

/-- Items behind commas, as long as there are any. -/
def parseMore {Item : Type} (item : Parser Item) :
    (fuel : Nat) → List Char → List Item × List Char
  | 0, text => ([], text)
  | fuel + 1, text =>
    match (Text.expect? ',' text).bind fun behind => item (Text.skipBlanks behind) with
    | some (first, rest) =>
      let (others, rest) := parseMore item fuel rest
      (first :: others, rest)
    | none => ([], text)

/-- Items between parentheses, separated by commas. A comma may stand behind the last item. -/
def parseList {Item : Type} (item : Parser Item) : Parser (List Item) := fun text => do
  let text ← Text.expect? '(' text
  let text := Text.skipBlanks text
  match Text.expect? ')' text with
  | some rest => return ([], rest)
  | none =>
    let (first, text) ← item text
    let (others, text) := parseMore item text.length text
    let text := (Text.expect? ',' text).getD text
    let rest ← Text.expect? ')' (Text.skipBlanks text)
    return (first :: others, rest)

/-- The size of an array in brackets, if it is known. It is positive and fits 64 bits. -/
def parseSize : Parser (Option Nat) := fun text => do
  let text ← Text.expect? '[' text
  let digits := text.takeWhile Text.isDecimalDigit
  let rest ← Text.expect? ']' (text.drop digits.length)
  if digits.isEmpty then return (none, rest)
  else
    let count ← Text.natOfDecimal? digits
    if 0 < count ∧ count < UInt64.size then return (some count, rest) else none

/-- The arrays of a type, whose sizes stand behind it. -/
def parseSizes (type : TypeName) : (fuel : Nat) → List Char → TypeName × List Char
  | 0, text => (type, text)
  | fuel + 1, text =>
    match parseSize text with
    | some (none, rest) => parseSizes (.array type) fuel rest
    | some (some count, rest) => parseSizes (.fixedArray type count) fuel rest
    | none => (type, text)

/-- A type, given how the parts of a tuple are read. -/
def parseTypeWith (part : Parser TypeName) : Parser TypeName := fun text => do
  let parts := (Text.expectWord? TypeName.emptyTuple text).getD text
  let (type, rest) ←
    if parts.head? = some '(' then
      (parseList part parts).map fun (parts, rest) => (TypeName.tuple parts, rest)
    else (parseRoot text).map fun (name, rest) => (TypeName.root name, rest)
  return parseSizes type rest.length rest

/-- A type in which tuples stand at most `depth` deep within each other. -/
def parseTypeWithin : (depth : Nat) → Parser TypeName
  | 0 => parseTypeWith fun _ => none
  | depth + 1 => parseTypeWith (parseTypeWithin depth)

/-- The words that tell where a parameter is kept. -/
def locations : List String := ["memory", "storage", "calldata"]

/-- A parameter of a list that stands within no other. Behind its type may stand the place where it
is kept, the word that makes it a topic, and its name, all as whole names. -/
def parseParam : Parser Param := fun text => do
  let (type, text) ← parseTypeWithin (nestingLimit - 1) text
  let (word, text) := nextName text
  let (word, text) := if locations.contains word then nextName text else (word, text)
  let indexed := word = "indexed"
  let (name, text) := if indexed then nextName text else (word, text)
  return ({ name, type, indexed }, text)

/-- What a declaration says, whatever it declares. -/
structure Outline where
  name : String
  inputs : List Param
  /-- Whether a word tells how the state is used. -/
  usesState : Bool
  outputs : List Param
  anonymous : Bool

/-- The results of a function, where all that announces them is optional. -/
def parseResults (text : List Char) : List Param × List Char :=
  let text := Text.skipBlanks text
  let text := (Text.expect? ':' text).getD text
  let text := Text.skipBlanks ((Text.expectWord? "returns" text).getD text)
  (parseList parseParam text).getD ([], text)

/-- What a declaration says behind the word that announces it. -/
def outline? (hasResults : Bool) (text : List Char) : Option Outline := do
  let (name, text) ← parseRoot text
  let (inputs, text) ← parseList parseParam (Text.skipBlanks text)
  let text := (skipAnyWord? ["internal", "external", "private", "public"] text).getD text
  let behindUse? := skipAnyWord? ["pure", "view", "payable"] text
  let text := behindUse?.getD text
  let (outputs, text) := if hasResults then parseResults text else ([], text)
  let text := Text.skipBlanks text
  let behindAnonymous? := Text.expectWord? "anonymous" text
  let anonymous := behindAnonymous?.isSome
  if (behindAnonymous?.getD text).isEmpty then
    return { name, inputs, usesState := behindUse?.isSome, outputs, anonymous }
  else none

/-- The text behind the word that announces what is declared, which may be left out. -/
def skipAnnouncement (word : String) (text : List Char) : List Char :=
  match Text.expectWord? word text with
  | some rest =>
    if rest.head?.any Text.isWhiteSpace then rest.dropWhile Text.isWhiteSpace else text
  | none => text

def function? (text : List Char) : Option Function := do
  let outline ← outline? true (skipAnnouncement "function" text)
  if outline.anonymous then none
  else return { name := outline.name, inputs := outline.inputs, outputs := outline.outputs }

def event? (text : List Char) : Option Event := do
  let outline ← outline? false (skipAnnouncement "event" text)
  if outline.usesState then none
  else return { name := outline.name, inputs := outline.inputs, anonymous := outline.anonymous }

def error? (text : List Char) : Option Outline := do
  let outline ← outline? false (skipAnnouncement "error" text)
  if outline.usesState || outline.anonymous then none else return outline

/-- The code that creates a contract, by the outline of its declaration. -/
def creation? (text : List Char) : Option Outline := do
  let outline ← outline? false text
  if outline.anonymous || outline.name ≠ "constructor" then none else return outline

/-- The declaration that an item of an interface spells. -/
def declaration? (text : List Char) : Option Declaration :=
  let word := text.takeWhile Char.isAlpha
  let rest := Text.skipBlanks (text.drop word.length)
  match String.ofList word with
  | "function" => (function? rest).map .function
  | "event" => (event? rest).map .event
  | "error" => (error? rest).map fun outline => .error outline.name outline.inputs
  | "constructor" => (creation? text).map fun outline => .creation outline.inputs
  | _ => none

def readFunction? (text : String) : Option Function := function? text.toList

def read? (text : String) : Option Declaration := declaration? text.toList

end HostedEvm.Abi.Signature
