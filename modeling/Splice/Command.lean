import Splice.Arguments.Help
import Splice.Config.Settings
import Splice.Directive
import Splice.Live
import Splice.Log.Setup
import Splice.Reader
import Splice.Report

namespace Splice

structure Options where
  json : Bool
  /-- The root of the project, if it is not the working directory. -/
  root : Option String
  logLevel : Option String
  logFile : Option String
  deriving DecidableEq, Repr

inductive Command
  | expand (file : String) (origins : Bool)
  /-- List what one target leads to, as if a directive in `file` named it. -/
  | includes (file : String) (target : Option String)
  deriving DecidableEq, Repr

structure Invocation where
  options : Options
  command : Command
  deriving DecidableEq, Repr

namespace Command

/-! ### Forms -/

def helpFlag : Flag := ⟨["-h", "--help"], .help, "show this help message and exit"⟩

def sharedFlags : List Flag :=
  [⟨["--json"], .switch, "Output as JSON"⟩,
   ⟨["--repo-root"], .value "REPO_ROOT",
     "Project root holding .archdsl/config (default: current directory)"⟩,
   ⟨["--log-level"], .value "LOG_LEVEL", "Logging level (DEBUG, INFO, WARNING, ERROR)"⟩,
   ⟨["--log-file"], .value "LOG_FILE", "Write logs to this file instead of stderr"⟩]

def program : String := "archdsl"

def expandForm : Form where
  program := program ++ " expand"
  description := "Print a DSL file with all !include directives expanded"
  flags := helpFlag ::
    ⟨["--origins"], .switch, "Prefix each line with <origin>:<line>:"⟩ :: sharedFlags
  operands := [⟨"file", "DSL source file to expand"⟩]
  commands := []

def includesForm : Form where
  program := program ++ " includes"
  description := "Resolve one include target as if written in a DSL file"
  flags := helpFlag :: sharedFlags
  operands := [⟨"file", "DSL file containing the directive"⟩,
    ⟨"target", "Include target (file, directory or https URL)"⟩]
  commands := []

def summaries : List Operand :=
  [⟨"expand", expandForm.description⟩, ⟨"includes", includesForm.description⟩]

def form : Form where
  program := program
  description := "archdsl - resolve !include directives in architecture DSL sources"
  flags := [helpFlag, ⟨["--version"], .version, "show program's version number and exit"⟩]
  operands := []
  commands := summaries

/-! ### Reading arguments -/

def option (g : Arguments.Given) (name : String) : Option String :=
  (g.value? name).filter (!·.isEmpty)

def options (g : Arguments.Given) : Options :=
  ⟨g.has "--json", option g "--repo-root", option g "--log-level", option g "--log-file"⟩

def named? : String → Option (Form × (Arguments.Given → Command))
  | "expand" => some (expandForm, fun g =>
      .expand ((g.operands[0]?.join).getD "") (g.has "--origins"))
  | "includes" => some (includesForm, fun g =>
      .includes ((g.operands[0]?.join).getD "") (g.operands[1]?.join))
  | _ => none

def invalidChoice (name : String) : Halt :=
  .misuse ("argument " ++ Form.commandName ++ ": invalid choice: " ++ Text.quoted name ++
    " (choose from " ++ ", ".intercalate (summaries.map (Text.quoted ·.name)) ++ ")")

def understood (extras : List String) : Except (Form × Halt) Unit :=
  if extras = [] then .ok ()
  else .error (form, .misuse ("unrecognized arguments: " ++ " ".intercalate extras))

def read (arguments : List String) : Except (Form × Halt) Invocation := do
  let g ← (Arguments.given form arguments).mapError (form, ·)
  match g.command with
  | [] =>
    understood g.extras
    throw (form, .help)
  | name :: rest => match named? name with
    | none => throw (form, invalidChoice name)
    | some (f, make) =>
      let sub ← (Arguments.given f rest).mapError (f, ·)
      understood (g.extras ++ sub.extras)
      return ⟨options sub, make sub⟩

end Command

/-! ### Running -/

/-- How a run ends: with an exit code, unless a failure passes through. -/
structure Exit where
  code : Except Fault Nat
  reported : Option Fault
  printed : Printed
  requests : List Request
  files : FileTree

namespace Command

structure Settings where
  session : Config.Session
  root : Path
  logLevel : String
  logFile : Option Path

def logLevel (o : Options) (config : Mapping) : Except Fault String :=
  o.logLevel.elim (Config.logLevel config) .ok

def logFile (w : World) (o : Options) (root : Path) (config : Mapping) :
    Except Fault (Option Path) :=
  o.logFile.elim (Config.logFile w (some root) config) fun file => .ok (some (.ofText file))

def settings (w : World) (o : Options) : Outcome Settings := do
  let root ← w.files.resolve (o.root.elim w.current .ofText)
  let (session, entry) := (Config.Session.ofWorld w).get (some root) true
  let config := (← entry).config
  return ⟨session, root, ← logLevel o config, ← logFile w o root config⟩

def originText (o : Option Path) : String := o.elim "-" Path.text

def originValue (o : Option Path) : Value := o.elim .null (.text ·.text)

def lineValue (l : Line) : Value :=
  .map [(.text "origin", originValue l.origin), (.text "line", .int l.number),
    (.text "text", .text l.text)]

def lineText (origins : Bool) (l : Line) : String :=
  if origins then originText l.origin ++ ":" ++ toString l.number ++ ":" ++ l.text else l.text

def printLines (r : Report) (source : Path) (origins : Bool) (ls : List Line) : Printed :=
  if r.json then r.success "success"
    [(.text "file", .text source.text), (.text "lines", .list (ls.map lineValue))] ""
  else (ls.map fun l => r.text (lineText origins l)).foldl (· ++ ·) .none

def unitValue (u : SourceUnit) : Value :=
  .map [(.text "file", originValue u.file), (.text "lines", .int u.lines.length)]

def unitText (u : SourceUnit) : String :=
  originText u.file ++ " (" ++ toString u.lines.length ++ " lines)"

def printUnits (r : Report) (target : String) (us : List SourceUnit) : Printed :=
  r.success "success" [(.text "target", .text target), (.text "files", .list (us.map unitValue))]
    (if us = [] then target ++ ": nothing to include" else "\n".intercalate (us.map unitText))

def perform (files : Files) (s : Config.Session) (root : Path) (r : Report) : Command → Live Printed
  | .expand file origins => do
    let source ← (← files.look).resolve (.ofText file)
    let fetching ← (s.fetching (some root)).2
    let fetch := Remote.fetch s.world.remote fetching.options
    let find origin words := (Include.parseIn files.look fetch origin words).registered
    return printLines r source origins (← Reader.spliceFile files.look find source)
  | .includes file target => do
    let parent ← (← files.look).resolve (.ofText file)
    let fetching ← (s.fetching (some root)).2
    let fetch := Remote.fetch s.world.remote fetching.options
    match target with
    | none => liftM (Outcome.fail (.noSuchField "list" "startswith") : Outcome Printed)
    | some target =>
      let found := Include.parseIn files.look fetch (some parent) ⟨["!include", target]⟩
      return printUnits r target (← found.registered)

/-- The end of a run. This library's own failures are reported, all others pass through. -/
def conclude (r : Report) (requests : List Request) (k : Log.Sink) : Except Fault Printed → Exit
  | .ok p => ⟨.ok 0, none, ⟨"", k.errors⟩ ++ p, requests, k.files⟩
  | .error e =>
    if e.kind.isOwn then
      ⟨.ok 1, some e, ⟨"", k.errors⟩ ++ r.error e.kind.name e "", requests, k.files⟩
    else ⟨.error e, none, ⟨"", k.errors⟩, requests, k.files⟩

/-- Run a command. Records logged before the settings are known go where an unprepared setup puts
them, later ones where they are wanted before anything else is done. -/
def run (w : World) (i : Invocation) : Exit :=
  let report : Report := ⟨i.options.json, some 2⟩
  let before := settings w i.options
  let sink := before.records.foldl Log.Setup.start.deliver (.ofFiles w.files w.clock)
  match before.result with
  | .error e => conclude report before.requests sink (.error e)
  | .ok s => match Log.Setup.start.configure w.files s.logLevel s.logFile with
    | (_, .error e) => conclude report before.requests
        { sink with files := Log.Setup.left w.files s.logFile } (.error e)
    | (setup, .ok files) =>
      let sink := { sink with files := files }
      let session := { s.session with world := { w with files := files } }
      let work := perform (setup.files sink) session s.root report i.command []
      conclude report (before.requests ++ work.requests) (work.records.foldl setup.deliver sink)
        work.result

def halt (w : World) (f : Form) : Halt → Exit
  | .help => ⟨.ok 0, none, ⟨f.helpPage, ""⟩, [], w.files⟩
  | .version => ⟨.ok 0, none, .line (f.program ++ " " ++ Bundle.version), [], w.files⟩
  | .misuse m =>
    ⟨.ok 2, none, ⟨"", f.usage ++ f.program ++ ": error: " ++ m ++ "\n"⟩, [], w.files⟩

def execute (w : World) (arguments : List String) : Exit :=
  match read arguments with
  | .ok i => run w i
  | .error (f, h) => halt w f h

end Command

end Splice
