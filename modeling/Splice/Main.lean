import Splice.Command
import Splice.Json.Reader
import Splice.World.Snapshot

namespace Splice.Main

open Splice.World.Snapshot (asMapping)

def worldOf (document : String) : World :=
  let m := match Json.read document.toList with
    | .ok v => asMapping v
    | .error _ => []
  World.Snapshot.world "R" (.ofText "/D") Bundle.node m

end Splice.Main

def main (arguments : List String) : IO UInt32 := do
  let input ← (← IO.getStdin).readToEnd
  let e := Splice.Command.execute (Splice.Main.worldOf input) arguments
  IO.print e.printed.output
  IO.eprint e.printed.errors
  match e.code with
  | .ok n => return n.toUInt32
  | .error f =>
    IO.eprintln (f.kind.name ++ ": " ++ f.message)
    return 1
