import Splice.Fault
import Splice.Json.Writer

namespace Splice

structure Printed where
  output : String
  errors : String
  deriving DecidableEq, Repr

namespace Printed

def none : Printed := ⟨"", ""⟩

def append (p q : Printed) : Printed := ⟨p.output ++ q.output, p.errors ++ q.errors⟩

instance : Append Printed := ⟨append⟩

def line (s : String) : Printed := ⟨s ++ "\n", ""⟩

def errorLine (s : String) : Printed := ⟨"", s ++ "\n"⟩

end Printed

structure Report where
  json : Bool
  /-- How far items are indented; without it a document is one line. -/
  indent : Option Nat
  deriving DecidableEq, Repr

namespace Report

def document (r : Report) (m : Mapping) : String := Json.write r.indent (.map m)

/-- The document of a result. Data under the name of the status take its place. -/
def successDocument (status : String) (data : Mapping) : Mapping :=
  data.foldl (fun m e => Entries.insert m e.1 e.2) [(.text "status", .text status)]

def success (r : Report) (status : String) (data : Mapping) (message : String) : Printed :=
  .line (if r.json then r.document (successDocument status data) else message)

/-- A failure that is not described otherwise describes itself. -/
def wording (e : Fault) (message : String) : String :=
  if message.isEmpty then e.message else message

def errorDocument (code : String) (e : Fault) (message : String) : Mapping :=
  [(.text "error", .text code), (.text "message", .text (wording e message))] ++
    if e.kind.isOwn then [(.text "context", .map e.context)] else []

def error (r : Report) (code : String) (e : Fault) (message : String) : Printed :=
  .errorLine (if r.json then r.document (errorDocument code e message)
    else "Error: " ++ wording e message)

def text (r : Report) (message : String) : Printed := if r.json then .none else .line message

end Report

end Splice
