import Splice.Config.Session
import Splice.Double.Reading
import Splice.Text.Upper

namespace Splice.Config

/-- The mapping at a name; what is missing or empty is an empty mapping. -/
def section? (m : Mapping) (name : String) : Except Fault Mapping :=
  let v := Mapping.field m name
  if v.isEmpty then .ok []
  else match v with
    | .map s => .ok s
    | _ => .error (.noSection v.fullKind)

/-! ### Fetching -/

structure Fetching where
  /-- Seconds to wait; without them there is no limit. -/
  timeout : Option Double
  agent : String
  deriving DecidableEq, Repr

def toDouble : Value → Except Fault Double
  | .int i => match Double.ofInt? i with
    | some d => .ok d
    | none => .error .notFinite
  | .float d => .ok d
  | .bool b => .ok (.round false (if b then 1 else 0) 1)
  | .text s => match Double.ofText? s.toList with
    | some d => .ok d
    | none => .error (.notNumber s)
  | v => .error (.noNumber v.fullKind)

def defaultAgent : String := "archdsl/" ++ Bundle.version

def fetching (m : Mapping) : Except Fault Fetching := do
  let fetch ← section? (← section? m "includes") "fetch"
  let timeout ← match Mapping.field fetch "timeoutSeconds" with
    | .null => pure none
    | v => some <$> toDouble v
  let agent := Mapping.field fetch "userAgent"
  return ⟨timeout, if agent.isEmpty then defaultAgent else agent.plain⟩

def Fetching.options (f : Fetching) : Remote.Options := ⟨f.timeout.map .float, some f.agent⟩

/-! ### Logging -/

structure Logging where
  level : String
  /-- The file to log to, if records do not go to the error output. -/
  file : Option Path
  deriving DecidableEq, Repr

def givenRoot (w : World) (root : Option Path) : Path := root.getD w.current

def logLevel (m : Mapping) : Except Fault String := do
  let level := Mapping.field (← section? m "logging") "level"
  return Text.uppered (if level.isEmpty then "WARNING" else level.plain)

def logFile (w : World) (root : Option Path) (m : Mapping) : Except Fault (Option Path) := do
  let file := Mapping.field (← section? m "logging") "file"
  if file.isEmpty then return none
  return some ((givenRoot w root).append (← w.expandHome (.ofText file.plain)))

def logging (w : World) (root : Option Path) (m : Mapping) : Except Fault Logging := do
  return ⟨← logLevel m, ← logFile w root m⟩

/-! ### Fetchers -/

def Session.fetching (s : Session) (root : Option Path) : Session × Outcome Fetching :=
  let (s, entry) := s.get root true
  (s, do Config.fetching (← entry).config)

end Splice.Config
