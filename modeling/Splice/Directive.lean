import Splice.Fault
import Splice.Text.Blank
import Splice.Text.Lower

namespace Splice.Directive

def keyword : List Char := "!include".toList

/-- The words of a directive; none for any other line. A line that begins like the keyword has to
have words at all. -/
def ofLine? (line : String) : Except Fault (Option Words) :=
  let s := Text.trim line.toList
  if keyword.isPrefixOf (Text.lower s) then
    match Words.split s with
    | .error e => .error (.unsplittable (String.ofList s) e)
    | .ok [] => .ok none
    | .ok (w :: ws) =>
      .ok (if Text.lower w = keyword then some ⟨(w :: ws).map String.ofList⟩ else none)
  else .ok none

end Splice.Directive
