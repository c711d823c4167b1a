import HostedEvm.Abi.Encode
import HostedEvm.Abi.Interface
import HostedEvm.Abi.Misread
import HostedEvm.Text.Utf8

set_option autoImplicit false

/-!
Values read from bytes.

Reading follows the offsets of dynamic values into windows of the buffer. A window may be opened
only a limited number of times within windows, so that offsets which lead in circles end. The
content of words is not checked against the width of their type, and bytes behind the values are
ignored. The host gives up on lengths whose bytes or words it cannot count.
-/

namespace HostedEvm.Abi

/-- The part of a buffer that is being read. Offsets count from the start of `base`. -/
structure Window where
  base : Bytes
  /-- What has not been read. -/
  rest : Bytes
  /-- The number of windows around this one. -/
  depth : Nat := 0

namespace Window

/-- How many windows may stand around another. -/
def depthLimit : Nat := 16

def ofBytes (bytes : Bytes) : Window := { base := bytes, rest := bytes }

/-- The number of bytes that have been read. -/
def position (window : Window) : Nat := window.base.length - window.rest.length

def inner (window : Window) (base : Bytes) : Except Misread Window :=
  if window.depth < depthLimit then .ok { base, rest := base, depth := window.depth + 1 }
  else .error .mismatch

/-- Read a number of bytes. The place behind them has to be a counter even if it lies outside of the
buffer. -/
def take (window : Window) (count : Nat) : Except Misread (Bytes × Window) :=
  let taken := window.rest.take count
  if taken.length = count then .ok (taken, { window with rest := window.rest.drop count })
  else do
    let _ ← Misread.counted (Counter.sum window.position count)
    .error .mismatch

def word (window : Window) : Except Misread (Word × Window) := do
  let (bytes, window) ← window.take 32
  return (Bytes.toWord bytes, window)

/-- Read an offset or a length, which fits 64 bits. -/
def offset (window : Window) : Except Misread (Nat × Window) := do
  let (word, window) ← window.word
  if word.toNat < UInt64.size then return (word.toNat, window) else .error .mismatch

/-- Read an offset, and open the window it leads to. -/
def follow (window : Window) : Except Misread (Window × Window) := do
  let (offset, window) ← window.offset
  if offset ≤ window.base.length then
    let inner ← window.inner (window.base.drop offset)
    return (inner, window)
  else .error .mismatch

/-- The number of whole words that have not been read. -/
def remainingWords (window : Window) : Nat := window.rest.length / 32

/-- Read a byte string behind its offset and its length. -/
def packed (window : Window) : Except Misread (Bytes × Window) := do
  let (inner, window) ← window.follow
  let (length, inner) ← inner.offset
  let (bytes, _) ← inner.take length
  return (bytes, window)

end Window

abbrev Reader (Result : Type) := Window → Except Misread (Result × Window)

namespace Reader

/-- Read something, and make something else of it. -/
def map {Source Target : Type} (f : Source → Target) (read : Reader Source) : Reader Target :=
  fun window => do
    let (result, window) ← read window
    return (f result, window)

def times {Result : Type} (read : Reader Result) : Nat → Reader (List Result)
  | 0, window => .ok ([], window)
  | count + 1, window => do
    let (value, window) ← read window
    let (values, window) ← times read count window
    return (value :: values, window)

/-- Read a sequence in a window of its own: behind an offset if it is dynamic, in place if not. -/
def sequence {Result : Type} (isDynamic : Bool) (read : Reader Result) : Reader Result :=
  fun window =>
    if isDynamic then do
      let (inner, window) ← window.follow
      let (values, _) ← read inner
      return (values, window)
    else do
      let inner ← window.inner window.rest
      let (values, inner) ← read inner
      return (values, { window with rest := inner.rest })

/-- Read the elements of an array behind their offset and their number. -/
def array {Result : Type} (elementWords : Except Breakdown Nat) (read : Reader Result) :
    Reader (List Result) :=
  fun window => do
    let (inner, window) ← window.follow
    let (count, inner) ← inner.offset
    if count = 0 then return ([], window)
    else
      let elements ← inner.inner inner.rest
      let words ← Misread.counted (elementWords.bind (Counter.product · count))
      if words ≤ elements.remainingWords then
        let (values, _) ← times read count elements
        return (values, window)
      else .error .mismatch

end Reader

namespace AbiType

mutual

/-- Read a value at the place where a sequence holds it. -/
def read : AbiType → Reader Value
  | .uint bits => Reader.map (.uint · bits) Window.word
  | .int bits => Reader.map (.int · bits) Window.word
  | .bool => Reader.map (fun word => .bool (word ≠ 0)) Window.word
  | .address => Reader.map (fun word : Word => .address (word.setWidth 160)) Window.word
  | .fixedBytes size => Reader.map (.fixedBytes · size) Window.word
  | .function =>
    Reader.map (fun word : Word => .function ((word >>> 64).setWidth 192)) Window.word
  | .bytes => Reader.map .bytes Window.packed
  | .string => Reader.map (fun content => .string (Text.Utf8.read content)) Window.packed
  | .array element => Reader.map .array (Reader.array (minimumWords element) (read element))
  | .fixedArray element count =>
    Reader.map .fixedArray
      (Reader.sequence (isDynamic element) (Reader.times (read element) count))
  | .tuple parts => Reader.map .tuple (Reader.sequence (anyDynamic parts) (readAll parts))

def readAll : List AbiType → Reader (List Value)
  | [] => fun window => .ok ([], window)
  | type :: rest => fun window => do
    let (value, window) ← read type window
    let (values, window) ← readAll rest window
    return (value :: values, window)

end

/-- Read an argument, if there is room for the least that its type takes, and for a blank value. -/
def readArgument (type : AbiType) : Reader Value := fun window => do
  let words ← Misread.counted type.minimumWords
  if words ≤ window.remainingWords && type.hasBlank then type.read window else .error .mismatch

end AbiType

namespace Param

/-- Read an argument for a parameter. The type is looked up only when the parameter has its turn. -/
def read (param : Param) : Reader Value := fun window => do
  let type ← Misread.demand param.type.resolve?
  type.readArgument window

def readAll : List Param → Reader (List Value)
  | [], window => .ok ([], window)
  | param :: rest, window => do
    let (value, window) ← param.read window
    let (values, window) ← readAll rest window
    return (value :: values, window)

/-- The arguments that a buffer holds. -/
def decodeAll (params : List Param) (bytes : Bytes) : Except Misread (List Value) := do
  let (values, _) ← readAll params (.ofBytes bytes)
  return values

end Param

end HostedEvm.Abi
