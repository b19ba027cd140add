import Splice.Text.Quoted
import Splice.Text.Split

namespace Splice

namespace Words

inductive Invalid
  | unclosedQuote
  | nothingEscaped
  deriving DecidableEq, Repr

def Invalid.text : Invalid → String
  | .unclosedQuote => "No closing quotation"
  | .nothingEscaped => "No escaped character"

def isSeparator (c : Char) : Bool := c = ' ' || c = '\t' || c = '\r' || c = '\n'

inductive Place
  | between
  | bare
  | single
  | double
  /-- After a backslash; the flag says whether within double quotes. -/
  | escaped (quoted : Bool)
  deriving DecidableEq, Repr

/-- The words from `place` on. Inside a word the first piece of the result completes it. -/
def splitFrom : Place → List Char → Except Invalid (List (List Char))
  | .between, [] => .ok []
  | .bare, [] => .ok [[]]
  | .single, [] => .error .unclosedQuote
  | .double, [] => .error .unclosedQuote
  | .escaped _, [] => .error .nothingEscaped
  | .between, c :: s =>
    if isSeparator c then splitFrom .between s
    else if c = '\'' then splitFrom .single s
    else if c = '"' then splitFrom .double s
    else if c = '\\' then splitFrom (.escaped false) s
    else Text.glue c <$> splitFrom .bare s
  | .bare, c :: s =>
    if isSeparator c then ([] :: ·) <$> splitFrom .between s
    else if c = '\'' then splitFrom .single s
    else if c = '"' then splitFrom .double s
    else if c = '\\' then splitFrom (.escaped false) s
    else Text.glue c <$> splitFrom .bare s
  | .single, c :: s =>
    if c = '\'' then splitFrom .bare s else Text.glue c <$> splitFrom .single s
  | .double, c :: s =>
    if c = '"' then splitFrom .bare s
    else if c = '\\' then splitFrom (.escaped true) s
    else Text.glue c <$> splitFrom .double s
  | .escaped false, c :: s => Text.glue c <$> splitFrom .bare s
  | .escaped true, c :: s =>
    if c = '"' ∨ c = '\\' then Text.glue c <$> splitFrom .double s
    else (Text.glue '\\' ∘ Text.glue c) <$> splitFrom .double s

def split (line : List Char) : Except Invalid (List (List Char)) := splitFrom .between line

end Words

structure Words where
  toList : List String
  deriving DecidableEq, Repr

namespace Words

def ofLine (line : String) : Except Invalid Words :=
  (fun ws => ⟨ws.map String.ofList⟩) <$> split line.toList

def size (w : Words) : Nat := w.toList.length

def has (w : Words) (i : Int) : Bool := 0 ≤ i && i < w.size

def hasMoreThan (w : Words) (i : Int) : Bool := i < (w.size : Int) - 1

def get? (w : Words) (i : Int) : Option String :=
  let j := if i < 0 then i + w.size else i
  if j < 0 then none else w.toList[j.toNat]?

def shown (w : Words) : String :=
  "Tokens([" ++ ", ".intercalate (w.toList.map Text.quoted) ++ "])"

end Words

end Splice
