import Splice.Bundle
import Splice.Config.File
import Splice.Config.Override

namespace Splice.Config

def directory (root : Path) : Path := (root.child ".archdsl").child "config"

def announce (p : Path) : Outcome Unit :=
  .log .debug .config ("Loading config file " ++ p.text)

def layFiles (t : FileTree) (m : Objects) : List Path → Outcome Objects
  | [] => pure m
  | p :: ps => do
    announce p
    layFiles t (m.overlay (← layer t p)) ps

def defaults (dir : Path) : Outcome Objects :=
  Bundle.layers.foldlM (fun m l => do
    announce (dir.child l.1)
    return m.overlay (Object.ofEntries l.2)) []

def bundled (w : World) (kind : String) : Path := w.bundle.append (.ofText kind)

def schemaName : String := "config/config.schema.yaml"

def check (m : Mapping) : Except Fault Unit := Bundle.schema.check schemaName (.map m)

def layered (w : World) (root : Path) : Outcome Objects := do
  layFiles w.files (← defaults (bundled w "config")) (← files w.files (directory root))

def load (w : World) (root : Path) (validate : Bool) : Outcome Mapping := do
  let m ← layered w root
  let (m, applied) := Override.applyAll m w.bindings
  applied
  if validate then check m.values
  return m.values

/-! ### Schemas by name -/

def schemaFile (name : String) : String :=
  let s := Text.lower name.toList
  if ".yaml".toList.isSuffixOf s || ".yml".toList.isSuffixOf s then name else name ++ ".yaml"

def dataPath (w : World) (kind name : String) : Path :=
  if name.isEmpty then bundled w kind else (bundled w kind).append (.ofText name)

def loadSchema (w : World) (name : String) : Except Fault Mapping := do
  let name := schemaFile name
  let p := dataPath w "schemas" name
  if ← w.files.contains p then
    match ← read w.files p with
    | .map m => return m
    | v => throw (.schemaNoMapping v.kind)
  else throw (.absentSchema name p.parent.text)

def validate (w : World) (name : String) (v : Value) : Except Fault Unit := do
  (Schema.ofValue (.map (← loadSchema w name))).check name v

end Splice.Config
