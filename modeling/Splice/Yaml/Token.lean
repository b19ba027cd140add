namespace Splice.Yaml

inductive Directive
  | version (major : Nat)
  /-- Tags that begin with `handle` begin with `start` instead. -/
  | tag (handle start : String)
  | other
  deriving DecidableEq, Repr

inductive Token
  | directive (d : Directive)
  | documentStart
  | documentEnd
  | blockListStart
  | blockMapStart
  | blockEnd
  | flowListStart
  | flowListEnd
  | flowMapStart
  | flowMapEnd
  | blockEntry
  | flowEntry
  | key
  | value
  | alias (name : String)
  | anchor (name : String)
  | tag (handle : Option String) (suffix : String)
  | scalar (plain : Bool) (text : String)
  deriving DecidableEq, Repr

end Splice.Yaml
