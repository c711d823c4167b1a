set_option autoImplicit false

/-!
Names in lower case with the words apart.
-/

namespace HostedEvm.Text

/-- Whether a capital letter behind this character begins a word. -/
def endsWord (c : Char) : Bool := c.isLower || c.isDigit

/-- The characters of a name in lower case, with an underscore where a capital letter follows a
small letter or a digit. -/
def snakeChars (afterWord : Bool) : List Char → List Char
  | [] => []
  | c :: rest =>
    if c.isUpper then
      if afterWord then '_' :: c.toLower :: snakeChars false rest
      else c.toLower :: snakeChars false rest
    else c :: snakeChars (endsWord c) rest

/-- A name in lower case with its words apart. -/
def snakeCase (name : String) : String := String.ofList (snakeChars false name.toList)

end HostedEvm.Text
