import HostedEvm.Toml.Scalar
import HostedEvm.Toml.Table
import HostedEvm.Toml.Text

set_option autoImplicit false

/-!
Reading a TOML document.
-/

namespace HostedEvm.Toml

/-- How deep arrays and inline tables may be nested. -/
def nestingLimit : Nat := 79

/-- The document without blanks, comments and ends of lines at its front. -/
def skipLines : (fuel : Nat) → List Char → Option (List Char)
  | 0, text => some text
  | fuel + 1, text => do
    let text ← skipComment? (Text.skipBlanks text)
    match newline? text with
    | some rest => skipLines fuel rest
    | none => some text

/-- The document at the next character that counts. -/
def skipSpace (text : List Char) : Option (List Char) := skipLines (text.length + 1) text

/-- The elements of an array behind its bracket, at most `fuel` of them. -/
def scanElements (scanValue : Scanner Form) : (fuel : Nat) → Scanner (List Form)
  | 0, _ => none
  | fuel + 1, text => do
    match ← skipSpace text with
    | ']' :: rest => return ([], rest)
    | text =>
      let (element, text) ← scanValue text
      match ← skipSpace text with
      | ',' :: rest =>
        let (elements, rest) ← scanElements scanValue fuel rest
        return (element :: elements, rest)
      | ']' :: rest => return ([element], rest)
      | _ => none

/-- A key and its value, put into a table. -/
def scanEntry (scanValue : Scanner Form) (entries : Entries) (text : List Char) :
    Option (Entries × List Char) := do
  let (path, text) ← scanKey text
  match text with
  | '=' :: rest =>
    let (form, rest) ← scanValue (Text.skipBlanks rest)
    let entries ← entries.defineDotted form path
    return (entries, rest)
  | _ => none

/-- The entries of an inline table behind its first ones, at most `fuel` of them. -/
def scanInline (scanValue : Scanner Form) : (fuel : Nat) → Entries → Scanner Entries
  | 0, _, _ => none
  | fuel + 1, entries, text => do
    let (entries, text) ← scanEntry scanValue entries text
    match Text.skipBlanks text with
    | ',' :: rest => scanInline scanValue fuel entries rest
    | '}' :: rest => return (entries, rest)
    | _ => none

/-- A value that holds no others. -/
def scanSimple : Scanner Form := fun text =>
  match scanText text with
  | some (content, rest) => some (.text content, rest)
  | none =>
    let run := scalarRun text
    (scalar? run).map fun form => (form, text.drop run.length)

/-- A value, in which arrays and inline tables are nested at most `depth` deep. -/
def scanValueWithin : (depth : Nat) → Scanner Form
  | 0, text => scanSimple text
  | depth + 1, text =>
    match text with
    | '[' :: rest =>
      (scanElements (scanValueWithin depth) (rest.length + 1) rest).map fun (elements, rest) =>
        (.list elements, rest)
    | '{' :: rest =>
      match Text.skipBlanks rest with
      | '}' :: rest => some (.record [], rest)
      | rest =>
        (scanInline (scanValueWithin depth) (rest.length + 1) [] rest).map fun (entries, rest) =>
          (entries.toForm, rest)
    | _ => scanSimple text

def scanValue : Scanner Form := scanValueWithin nestingLimit

/-- The document behind the end of a line, or at its own end. -/
def endLine? (text : List Char) : Option (List Char) := do
  let text ← skipComment? (Text.skipBlanks text)
  if text.isEmpty then some [] else newline? text

/-- A document that has been read in part. -/
structure Progress where
  root : Entries := []
  /-- The header in force. -/
  header : List String := []

/-- The path of a header without its last key, and the last key. -/
def splitPath : List String → Option (List String × String)
  | [] => none
  | [key] => some ([], key)
  | key :: rest => (splitPath rest).map fun (path, last) => (key :: path, last)

def Progress.openWith (progress : Progress) (path : List String)
    (enter : String → Entries → Option Entries) : Option Progress := do
  let (parents, key) ← splitPath path
  let root ← progress.root.atHeader (enter key) parents
  return { root, header := path }

def Progress.line (progress : Progress) (text : List Char) : Option (Progress × List Char) :=
  match text with
  | '[' :: '[' :: rest => do
    let (path, rest) ← scanKey rest
    match rest with
    | ']' :: ']' :: rest =>
      let progress ← progress.openWith path Entries.openElement
      let rest ← endLine? rest
      return (progress, rest)
    | _ => none
  | '[' :: rest => do
    let (path, rest) ← scanKey rest
    match rest with
    | ']' :: rest =>
      let progress ← progress.openWith path Entries.openTable
      let rest ← endLine? rest
      return (progress, rest)
    | _ => none
  | _ => do
    let (path, rest) ← scanKey text
    match rest with
    | '=' :: rest =>
      let (form, rest) ← scanValue (Text.skipBlanks rest)
      let root ← progress.root.atHeader (Entries.defineDotted form path) progress.header
      let rest ← endLine? rest
      return ({ progress with root }, rest)
    | _ => none

/-- Read the lines of a document, at most `fuel` of them. -/
def readLines : (fuel : Nat) → Progress → List Char → Option Progress
  | 0, _, _ => none
  | fuel + 1, progress, text => do
    match ← skipSpace text with
    | [] => return progress
    | text =>
      let (progress, rest) ← progress.line text
      readLines fuel progress rest

def read? (text : String) : Option Form :=
  let chars := match text.toList with
    | c :: rest => if c.toNat = 0xfeff then rest else c :: rest
    | [] => []
  (readLines (chars.length + 1) {} chars).map fun progress => progress.root.toForm

end HostedEvm.Toml
