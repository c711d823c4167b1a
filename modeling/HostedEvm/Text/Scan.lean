set_option autoImplicit false

/-!
Reading a text from its front.
-/

namespace HostedEvm.Text

/-- Whether a character is a space or a tab. -/
def isBlank (c : Char) : Bool := c = ' ' || c.toNat = 9

/-- The text without leading spaces and tabs. -/
def skipBlanks (text : List Char) : List Char := text.dropWhile isBlank

/-- Whether a character is white space in the sense of Unicode. -/
def isWhiteSpace (c : Char) : Bool :=
  let code := c.toNat
  (9 ≤ code && code ≤ 13) || code = 0x20 || code = 0x85 || code = 0xa0 || code = 0x1680 ||
    (0x2000 ≤ code && code ≤ 0x200a) || code = 0x2028 || code = 0x2029 || code = 0x202f ||
    code = 0x205f || code = 0x3000

/-- Leave out one given character. -/
def expect? (wanted : Char) : List Char → Option (List Char)
  | c :: rest => if c = wanted then some rest else none
  | [] => none

/-- Leave out given characters. -/
def expectAll? : (wanted : List Char) → List Char → Option (List Char)
  | [], text => some text
  | c :: wanted, text => (expect? c text).bind (expectAll? wanted)

/-- Leave out a given word, which may go on behind its end. -/
def expectWord? (word : String) (text : List Char) : Option (List Char) :=
  expectAll? word.toList text

end HostedEvm.Text
