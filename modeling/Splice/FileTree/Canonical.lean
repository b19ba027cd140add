import Splice.FileTree

namespace Splice

namespace Node

mutual
def links : Node → Nat
  | .file _ => 0
  | .link _ => 1
  | .directory es => linksOf es

def linksOf : List (String × Node) → Nat
  | [] => 0
  | (_, n) :: es => n.links + linksOf es
end

end Node

/-- A way to a place that meets no links: down from the root, or some directories up from the
working directory and down from there. -/
structure Route where
  up : Option Nat
  names : List String
  deriving DecidableEq, Repr

namespace Route

def root : Route := ⟨none, []⟩

def start (p : Path) : Route := if p.isAbsolute then root else ⟨some 0, []⟩

def above (r : Route) : Route :=
  match r.up, r.names with
  | some n, [] => ⟨some (n + 1), []⟩
  | up, names => ⟨up, names.dropLast⟩

def below (r : Route) (name : String) : Route := { r with names := r.names ++ [name] }

def place (current : Location) (r : Route) : Location :=
  match r.up with
  | none => r.names
  | some n => current.take (current.length - n) ++ r.names

end Route

namespace FileTree

/-- Links met so far, by the routes to them, with the routes that stand for them once those are
known. Two routes to one link count as two links. -/
abbrev Seen := List (Route × Option Route)

structure Progress where
  route : Route
  /-- The names left behind a link that leads back to itself. -/
  stuck : Option (List String)
  seen : Seen

/-- One walk along `names`. `follow` walks along the target of a link. -/
def advance (t : FileTree) (follow : Seen → Route → List String → Except Fault Progress)
    (seen : Seen) (here : Route) : List String → Except Fault Progress
  | [] => .ok ⟨here, none, seen⟩
  | name :: rest =>
    if name = "." then t.advance follow seen here rest
    else if name = ".." then t.advance follow seen here.above rest
    else if name.toList.contains '\x00' then .error .embeddedNul
    else
      let there := here.below name
      match t.node? (there.place t.current) with
      | some (.link target) => match seen.lookup there with
        | some (some known) => t.advance follow seen known rest
        | some none => .ok ⟨there, some rest, seen⟩
        | none => do
          let base := if fromRoot target then .root else here
          let p ← follow ((there, none) :: seen) base (targetNames target)
          match p.stuck with
          | some left => return { p with stuck := some (left ++ rest) }
          | none => t.advance follow ((there, some p.route) :: p.seen) p.route rest
      | _ => t.advance follow seen there rest

def approach (t : FileTree) : Nat → Seen → Route → List String → Except Fault Progress
  | 0, seen, here, names => .ok ⟨here, some names, seen⟩
  | n + 1, seen, here, names => t.advance (t.approach n) seen here names

/-- A link has one route from the root, and one from each directory above the working directory. -/
def routes (t : FileTree) : Nat := t.root.links * (t.current.length + 2)

def normalize (here : Location) : List String → Location
  | [] => here
  | name :: rest =>
    if name = "." then normalize here rest
    else if name = ".." then normalize here.dropLast rest
    else normalize (here ++ [name]) rest

def canonical (t : FileTree) (p : Path) : Except Fault Location := do
  let r ← t.approach (t.routes + 1) [] (.start p) p.parts
  return normalize (r.route.place t.current) (r.stuck.getD [])

def pathTo (l : Location) : Path := ⟨.root, l⟩

def resolve (t : FileTree) (p : Path) : Except Fault Path := do
  let q := pathTo (← t.canonical p)
  match t.find q with
  | .error (.refused .tooManyLinks place) => throw (.linkLoop place)
  | _ => return q

end FileTree

end Splice
