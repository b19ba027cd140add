import Splice.Text.Split

namespace Splice.Text

def fileLines : List Char → List (List Char)
  | [] => []
  | '\r' :: '\n' :: s => [] :: fileLines s
  | '\r' :: s => [] :: fileLines s
  | '\n' :: s => [] :: fileLines s
  | c :: s => glue c (fileLines s)

def unifyLineEnds : List Char → List Char
  | [] => []
  | '\r' :: '\n' :: s => '\n' :: unifyLineEnds s
  | '\r' :: s => '\n' :: unifyLineEnds s
  | c :: s => c :: unifyLineEnds s

def dropTrailingEmpty (ls : List (List Char)) : List (List Char) :=
  (ls.reverse.dropWhile List.isEmpty).reverse

/-- A body without LF is one line; any other is cut at every LF and loses its empty lines at the
end. -/
def bodyLines (s : List Char) : List (List Char) :=
  if s.contains '\n' then dropTrailingEmpty (cut '\n' s) else [s]

def linesOfFile (s : String) : List String := (fileLines s.toList).map String.ofList

def linesOfBody (s : String) : List String := (bodyLines s.toList).map String.ofList

end Splice.Text
