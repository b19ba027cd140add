import Splice.Text.Range

namespace Splice.Text

/-- White space, the separators U+001C to U+001F included. -/
def blanks : Ranges :=
  [(0x9, 0xd), (0x1c, 0x20), (0x85, 0x85), (0xa0, 0xa0), (0x1680, 0x1680), (0x2000, 0x200a),
   (0x2028, 0x2029), (0x202f, 0x202f), (0x205f, 0x205f), (0x3000, 0x3000)]

def isBlank (c : Char) : Bool := blanks.holds c

def isSeparator (c : Char) : Bool := '\x1c' ≤ c && c ≤ '\x1f'

def trimWhile (p : Char → Bool) (s : List Char) : List Char :=
  ((s.dropWhile p).reverse.dropWhile p).reverse

def trim (s : List Char) : List Char := trimWhile isBlank s

def trimSpaces (s : List Char) : List Char := trimWhile (fun c => isBlank c && !isSeparator c) s

def trimmed (s : String) : String := String.ofList (trim s.toList)

end Splice.Text
