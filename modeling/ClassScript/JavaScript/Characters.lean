/-!
# Character classes

Which characters separate tokens, end lines and make up names. A name may hold any character that
is neither a blank, a control character nor punctuation of the language, so symbols outside ASCII are
all allowed.
-/

namespace ClassScript.JavaScript

/-- Ends a line for a comment and for automatic semicolons. -/
def isLineEnd (c : Char) : Bool := c == '\n' || c.toNat == 0x2028 || c.toNat == 0x2029

/-- The white space of Unicode. -/
def isWhite (c : Char) : Bool :=
  let n := c.toNat
  (0x09 ≤ n && n ≤ 0x0D) || n == 0x20 || n == 0x85 || n == 0xA0 || n == 0x1680 ||
    (0x2000 ≤ n && n ≤ 0x200A) || n == 0x2028 || n == 0x2029 || n == 0x202F || n == 0x205F ||
    n == 0x3000

/-- Separates tokens: white space, the byte order mark, the word joiner and the zero-width space. -/
def isSpace (c : Char) : Bool :=
  isWhite c || c.toNat == 0xFEFF || c.toNat == 0x2060 || c.toNat == 0x200B

/-- White space at which a line may be broken. The search for an automatic semicolon skips these and
no other blanks. -/
def isBreakable (c : Char) : Bool :=
  let n := c.toNat
  (0x09 ≤ n && n ≤ 0x0D) || n == 0x20 || n == 0x1680 || (0x2000 ≤ n && n ≤ 0x2006) ||
    (0x2008 ≤ n && n ≤ 0x200A) || n == 0x2028 || n == 0x2029 || n == 0x205F || n == 0x3000

def isDigit (c : Char) : Bool := '0' ≤ c && c ≤ '9'

def isOctal (c : Char) : Bool := '0' ≤ c && c ≤ '7'

def isHex (c : Char) : Bool := isDigit c || ('a' ≤ c && c ≤ 'f') || ('A' ≤ c && c ≤ 'F')

/-- The ASCII characters that never belong to a name. -/
def punctuation : List Char := ":;`\"'@#.,|^&<=>+-*/\\%?!~()[]\x7b\x7d".toList

def isNamePart (c : Char) : Bool :=
  if 0x61 ≤ c.toNat && c.toNat ≤ 0x7A then true
  else 0x20 ≤ c.toNat && !isSpace c && !punctuation.contains c

def isNameStart (c : Char) : Bool := isNamePart c && !isDigit c

end ClassScript.JavaScript
