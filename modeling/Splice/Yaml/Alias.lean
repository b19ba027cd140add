import Splice.Yaml.Node

namespace Splice.Yaml.Node

/-- Names given so far; a node that is not complete yet has none. -/
abbrev Anchors := List (String × Option Node)

def give (as : Anchors) (p : Properties) (n : Option Node) : Option Anchors :=
  match p.anchor with
  | none => some as
  | some name => if (as.lookup name).isSome then none else some ((name, n) :: as)

def complete (as : Anchors) (p : Properties) (n : Node) : Anchors :=
  match p.anchor with
  | none => as
  | some name => (name, some n) :: as

mutual
def expand (as : Anchors) : Node → Option (Node × Anchors)
  | .alias name => match as.lookup name with
    | some (some n) => some (n, as)
    | _ => none
  | .scalar p plain text => (give as p (some (.scalar p plain text))).map fun as =>
    (.scalar p plain text, as)
  | .list p items => do
    let (items, as) ← expandItems (← give as p none) items
    return (.list p items, complete as p (.list p items))
  | .map p entries => do
    let (entries, as) ← expandEntries (← give as p none) entries
    return (.map p entries, complete as p (.map p entries))

def expandItems (as : Anchors) : List Node → Option (List Node × Anchors)
  | [] => some ([], as)
  | n :: ns => do
    let (n, as) ← expand as n
    let (ns, as) ← expandItems as ns
    return (n :: ns, as)

def expandEntries (as : Anchors) : List (Node × Node) → Option (List (Node × Node) × Anchors)
  | [] => some ([], as)
  | (k, v) :: es => do
    let (k, as) ← expand as k
    let (v, as) ← expand as v
    let (es, as) ← expandEntries as es
    return ((k, v) :: es, as)
end

mutual
/-- The node where every mapping knows its place, which it keeps where an alias or a merge brings it to
another. Keys are no mappings. -/
def located (place : List Nat) : Node → Node
  | .list p items => .list p (locatedItems place 0 items)
  | .map p entries => .map { p with place := place } (locatedEntries place 0 entries)
  | n => n

def locatedItems (place : List Nat) (i : Nat) : List Node → List Node
  | [] => []
  | n :: ns => n.located (i :: place) :: locatedItems place (i + 1) ns

def locatedEntries (place : List Nat) (i : Nat) : List (Node × Node) → List (Node × Node)
  | [] => []
  | (k, v) :: es => (k, v.located (i :: place)) :: locatedEntries place (i + 1) es
end

def resolved (n : Node) : Option Node := (expand [] (n.located [])).map (·.1)

end Splice.Yaml.Node
