import HostedEvm.Wire.Form

set_option autoImplicit false

/-!
Tables of a TOML document while it is being read.

A table is opened by a header, by a dotted key, or because it holds a table of a header. It may be
opened by one header only, and a dotted key reaches into no table that a header opened.
-/

namespace HostedEvm.Toml

inductive Opening
  /-- A header for a table within it. -/
  | implied
  | header
  | dottedKey
  deriving DecidableEq

inductive Node
  | value (form : Form)
  | table (opening : Opening) (entries : List (String × Node))
  /-- Tables that headers add one by one, newest first. -/
  | tables (newest : List (String × Node)) (older : List (List (String × Node)))

abbrev Entries := List (String × Node)

namespace Entries

def find? (entries : Entries) (key : String) : Option Node :=
  (List.find? (fun entry => entry.1 = key) entries).map Prod.snd

def put (entries : Entries) (key : String) (node : Node) : Entries :=
  if (entries.find? key).isSome then
    entries.map fun entry => if entry.1 = key then (key, node) else entry
  else entries ++ [(key, node)]

/-- Change the table that a header's path leads to, opening tables on the way. -/
def atHeader (change : Entries → Option Entries) : List String → Entries → Option Entries
  | [], entries => change entries
  | key :: path, entries =>
    match entries.find? key with
    | none => (atHeader change path []).map fun inner => entries.put key (.table .implied inner)
    | some (.table opening inner) =>
      (atHeader change path inner).map fun inner => entries.put key (.table opening inner)
    | some (.tables newest older) =>
      (atHeader change path newest).map fun newest => entries.put key (.tables newest older)
    | some (.value _) => none

def openTable (key : String) (entries : Entries) : Option Entries :=
  match entries.find? key with
  | none => some (entries.put key (.table .header []))
  | some (.table .implied inner) => some (entries.put key (.table .header inner))
  | _ => none

/-- Add a table to those of a header. -/
def openElement (key : String) (entries : Entries) : Option Entries :=
  match entries.find? key with
  | none => some (entries.put key (.tables [] []))
  | some (.tables newest older) => some (entries.put key (.tables [] (newest :: older)))
  | _ => none

/-- Put a value under a key that is free. -/
def define (key : String) (form : Form) (entries : Entries) : Option Entries :=
  if (entries.find? key).isSome then none else some (entries ++ [(key, .value form)])

/-- Put a value under a dotted key. -/
def defineDotted (form : Form) : List String → Entries → Option Entries
  | [], _ => none
  | [key], entries => entries.define key form
  | key :: path, entries =>
    match entries.find? key with
    | none =>
      (defineDotted form path []).map fun inner => entries.put key (.table .dottedKey inner)
    | some (.table .dottedKey inner) =>
      (defineDotted form path inner).map fun inner => entries.put key (.table .dottedKey inner)
    | some (.table .implied inner) =>
      if path.length ≤ 1 then none
      else
        (defineDotted form path inner).map fun inner => entries.put key (.table .implied inner)
    | some (.tables newest older) =>
      if path.length ≤ 1 then none
      else
        (defineDotted form path newest).map fun newest => entries.put key (.tables newest older)
    | _ => none

end Entries

mutual

/-- What stands under a key as plain data. -/
def Node.toForm : Node → Form
  | .value form => form
  | .table _ entries => .record (fieldsOf entries)
  | .tables newest older => .list (recordsOf older ++ [.record (fieldsOf newest)])

/-- The entries of a table as plain data. -/
def fieldsOf : List (String × Node) → List (String × Form)
  | [] => []
  | (key, node) :: rest => (key, node.toForm) :: fieldsOf rest

/-- Several tables as plain data, oldest first. -/
def recordsOf : List (List (String × Node)) → List Form
  | [] => []
  | entries :: rest => recordsOf rest ++ [.record (fieldsOf entries)]

end

def Entries.toForm (entries : Entries) : Form := .record (fieldsOf entries)

end HostedEvm.Toml
