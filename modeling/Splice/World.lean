import Splice.FileTree.Canonical
import Splice.Remote

namespace Splice

structure World where
  files : FileTree
  /-- The directory that holds the bundled configuration and schemas. -/
  bundle : Path
  bindings : List (String × String)
  remote : Remote.Table
  /-- Home directories by the names of users; that of the user who runs the program has no name. -/
  homes : List (String × String)
  /-- What the clock shows as one record after the other is made. -/
  clock : Nat → String

namespace World

def lookup? (w : World) (name : String) : Option String := w.bindings.lookup name

def setVariable (w : World) (name value : String) : World :=
  { w with bindings := (name, value) :: w.bindings.filter (·.1 ≠ name) }

def unsetVariable (w : World) (name : String) : World :=
  { w with bindings := w.bindings.filter (·.1 ≠ name) }

def current (w : World) : Path := FileTree.pathTo w.files.current

def homePath (home : String) : Except Fault Path :=
  let cs := (home.toList.reverse.dropWhile (· = '/')).reverse
  if cs.head? = some '~' then .error .noHome
  else .ok (if cs = [] then ⟨.root, []⟩ else .ofText (String.ofList cs))

def home? (w : World) (user : String) : Option String :=
  (if user = "" then w.lookup? "HOME" else none).or (w.homes.lookup user)

/-- A first name that starts with `~` stands for the home directory of a user. -/
def expandHome (w : World) (p : Path) : Except Fault Path :=
  match p.anchor, p.parts with
  | .none, name :: rest => match name.toList with
    | '~' :: user => match w.home? (String.ofList user) with
      | some home => return (← homePath home).nest ⟨.none, rest⟩
      | none => .error .noHome
    | _ => .ok p
  | _, _ => .ok p

end World

end Splice
