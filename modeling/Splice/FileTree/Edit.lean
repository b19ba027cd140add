import Splice.FileTree.Canonical

namespace Splice

namespace Node

def putEntry (entries : List (String × Node)) (name : String) (n : Node) : List (String × Node) :=
  match entries with
  | [] => [(name, n)]
  | e :: es => if e.1 = name then (name, n) :: es else e :: putEntry es name n

def put (n : Node) (m : Node) : Location → Node
  | [] => m
  | name :: rest => match n with
    | .directory es =>
      .directory (putEntry es name (((es.lookup name).getD (.directory [])).put m rest))
    | other => other

def remove (n : Node) : Location → Node
  | [] => n
  | [name] => match n with
    | .directory es => .directory (es.filter (·.1 ≠ name))
    | other => other
  | name :: rest => match n with
    | .directory es => match es.lookup name with
      | some m => .directory (putEntry es name (m.remove rest))
      | none => n
    | other => other

end Node

namespace FileTree

def put (t : FileTree) (l : Location) (n : Node) : FileTree := { t with root := t.root.put n l }

def isVacant (t : FileTree) (l : Location) : Bool :=
  match l.getLast?, t.node? l.dropLast with
  | some name, some (.directory entries) => (entries.lookup name).isNone
  | _, _ => false

/-- The place of the last name, if a walk finds all names but this one. -/
def vacancy (root : Node) (links : Nat) (here : Location) : List String → Option Location
  | [] => none
  | name :: rest =>
    match root.at? here with
    | some (.directory entries) =>
      if name = "." then vacancy root links here rest
      else if name = ".." then vacancy root links here.dropLast rest
      else match entries.lookup name with
        | none => if rest = [] then some (here ++ [name]) else none
        | some (.link target) => match links with
          | 0 => none
          | links + 1 =>
            vacancy root links (if fromRoot target then [] else here) (targetNames target ++ rest)
        | some _ => vacancy root links (here ++ [name]) rest
    | _ => none
termination_by names => (links, names.length)

/-- Make the directory with the given names, the last one first, and those above it; one that exists
already is left as it is. -/
def makeBelow (t : FileTree) (anchor : Anchor) : List String → Except Fault FileTree
  | [] => .ok t
  | name :: above =>
    let p : Path := ⟨anchor, (name :: above).reverse⟩
    match t.find p with
    | .ok l => match t.node? l with
      | some (.directory _) => .ok t
      | _ => .error (.refused .existing p.text)
    | .error (.refused .absent _) => do
      let t ← t.makeBelow anchor above
      match t.find p with
      | .error (.refused .absent _) =>
        let l := (← t.find ⟨anchor, above.reverse⟩) ++ [name]
        if t.isVacant l then return t.put l (.directory [])
        else throw (.refused .existing p.text)
      | .error e => throw e
      | .ok _ => return t
    | .error e => .error e

def makeDirectory (t : FileTree) (p : Path) : Except Fault FileTree :=
  t.makeBelow p.anchor p.parts.reverse

/-- What making a directory leaves, also where it fails: directories above it that were made stay. -/
def leftBelow (t : FileTree) (anchor : Anchor) : List String → FileTree
  | [] => t
  | name :: above => match t.makeBelow anchor (name :: above) with
    | .ok t => t
    | .error _ => match t.find ⟨anchor, (name :: above).reverse⟩ with
      | .error (.refused .absent _) => t.leftBelow anchor above
      | _ => t

def openToAppend (t : FileTree) (p : Path) : Except Fault FileTree :=
  match t.find p with
  | .ok l => match t.node? l with
    | some (.directory _) => .error (.refused .isDirectory p.text)
    | _ => .ok t
  | .error (.refused .absent why) => match vacancy t.root mostLinks (t.start p) p.parts with
    | some l => .ok (t.put l (.file []))
    | none => .error (.refused .absent why)
  | .error e => .error e

def appendTo (t : FileTree) (p : Path) (bytes : List UInt8) : FileTree :=
  match t.find p with
  | .ok l => match t.node? l with
    | some (.file bs) => t.put l (.file (bs ++ bytes))
    | _ => t
  | .error _ => t

def write (t : FileTree) (p : Path) (bytes : List UInt8) : Except Fault FileTree := do
  let t ← (← t.makeDirectory p.parent).openToAppend p
  return t.put (← t.find p) (.file bytes)

def remove (t : FileTree) (p : Path) : Except Fault FileTree := do
  let above ← (walk t.root mostLinks (t.start p) p.parent.parts).mapError (.refused · p.text)
  let l := above ++ p.parts.getLast?.toList
  match t.node? l with
  | none => throw (.refused .absent p.text)
  | some (.directory _) => throw (.refused .isDirectory p.text)
  | some _ => return { t with root := t.root.remove l }

end FileTree

end Splice
