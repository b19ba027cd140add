import Splice.Text.Split

namespace Splice

/-- What a path starts from. Exactly two slashes at the front are a root of their own. -/
inductive Anchor
  | none
  | root
  | doubleRoot
  deriving DecidableEq, Repr

def Anchor.text : Anchor → String
  | .none => ""
  | .root => "/"
  | .doubleRoot => "//"

structure Path where
  anchor : Anchor
  parts : List String
  deriving DecidableEq, Repr

namespace Path

def anchorOf : List Char → Anchor
  | '/' :: '/' :: '/' :: _ => .root
  | '/' :: '/' :: _ => .doubleRoot
  | '/' :: _ => .root
  | _ => .none

def partsOf (s : List Char) : List String :=
  ((Text.cut '/' s).filter fun p => p ≠ [] ∧ p ≠ ['.']).map String.ofList

def ofText (s : String) : Path := ⟨anchorOf s.toList, partsOf s.toList⟩

def text (p : Path) : String :=
  if p.anchor = .none ∧ p.parts = [] then "."
  else p.anchor.text ++ "/".intercalate p.parts

def isAbsolute (p : Path) : Bool := p.anchor ≠ .none

def parent (p : Path) : Path := { p with parts := p.parts.dropLast }

def child (p : Path) (name : String) : Path := { p with parts := p.parts ++ [name] }

def append (p q : Path) : Path :=
  if q.isAbsolute then q else { p with parts := p.parts ++ q.parts }

/-- `q` taken from the directory `p`, whatever `q` starts from. -/
def nest (p q : Path) : Path := { p with parts := p.parts ++ q.parts }

end Path

end Splice
