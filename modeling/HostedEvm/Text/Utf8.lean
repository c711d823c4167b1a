import HostedEvm.Bytes

set_option autoImplicit false

/-!
Reading text from bytes that may not be text.

A character takes one to four bytes. Where the bytes at hand do not continue a character as they
should, those read for it give one replacement character, and reading goes on at the offending
byte.
-/

namespace HostedEvm.Text.Utf8

/-- The character that stands for bytes that are no text. -/
def replacement : Char := Char.ofNat 0xfffd

def isContinuation (byte : UInt8) : Bool := 0x80 ≤ byte && byte ≤ 0xbf

/-- Whether a byte may follow the first of a three-byte character. -/
def isSecondOfThree (first second : UInt8) : Bool :=
  if first = 0xe0 then 0xa0 ≤ second && second ≤ 0xbf
  else if first = 0xed then 0x80 ≤ second && second ≤ 0x9f
  else isContinuation second

/-- Whether a byte may follow the first of a four-byte character. -/
def isSecondOfFour (first second : UInt8) : Bool :=
  if first = 0xf0 then 0x90 ≤ second && second ≤ 0xbf
  else if first = 0xf4 then 0x80 ≤ second && second ≤ 0x8f
  else isContinuation second

/-- The character with the given bits of its bytes, six from each but the first. -/
def join (lead : Nat) (continuations : List UInt8) : Char :=
  Char.ofNat (continuations.foldl (fun code byte => code * 64 + byte.toNat % 64) lead)

def decode : Bytes → List Char
  | [] => []
  | first :: rest =>
    if first < 0x80 then Char.ofNat first.toNat :: decode rest
    else if 0xc2 ≤ first && first ≤ 0xdf then
      match rest with
      | second :: rest₂ =>
        if isContinuation second then join (first.toNat % 32) [second] :: decode rest₂
        else replacement :: decode (second :: rest₂)
      | [] => [replacement]
    else if 0xe0 ≤ first && first ≤ 0xef then
      match rest with
      | second :: third :: rest₃ =>
        if isSecondOfThree first second then
          if isContinuation third then
            join (first.toNat % 16) [second, third] :: decode rest₃
          else replacement :: decode (third :: rest₃)
        else replacement :: decode (second :: third :: rest₃)
      | [second] =>
        if isSecondOfThree first second then [replacement] else replacement :: decode [second]
      | [] => [replacement]
    else if 0xf0 ≤ first && first ≤ 0xf4 then
      match rest with
      | second :: third :: fourth :: rest₄ =>
        if isSecondOfFour first second then
          if isContinuation third then
            if isContinuation fourth then
              join (first.toNat % 8) [second, third, fourth] :: decode rest₄
            else replacement :: decode (fourth :: rest₄)
          else replacement :: decode (third :: fourth :: rest₄)
        else replacement :: decode (second :: third :: fourth :: rest₄)
      | [second, third] =>
        if isSecondOfFour first second then
          if isContinuation third then [replacement] else replacement :: decode [third]
        else replacement :: decode [second, third]
      | [second] =>
        if isSecondOfFour first second then [replacement] else replacement :: decode [second]
      | [] => [replacement]
    else replacement :: decode rest

def read (bytes : Bytes) : String := String.ofList (decode bytes)

end HostedEvm.Text.Utf8
