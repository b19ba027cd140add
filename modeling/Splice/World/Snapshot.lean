import Splice.FileTree.Edit
import Splice.World

namespace Splice.World.Snapshot

def asText : Value → String
  | .text s => s
  | _ => ""

def asInt : Value → Int
  | .int i => i
  | _ => 0

def asList : Value → List Value
  | .list vs => vs
  | _ => []

def asMapping : Value → Mapping
  | .map es => es
  | _ => []

def entries (v : Value) : List (String × Value) :=
  (asMapping v).filterMap fun
    | (.text k, v) => some (k, v)
    | _ => none

def bytesOfHex : List Char → List UInt8
  | a :: b :: s => UInt8.ofNat ((Text.ofHex? [a, b]).getD 0) :: bytesOfHex s
  | _ => []

def bytes (v : Value) : List UInt8 :=
  match v with
  | .text s => Text.Utf8.encode s
  | v => bytesOfHex (asText (Mapping.field (asMapping v) "hex")).toList

def node : Value → Node
  | .null => .directory []
  | v => match Mapping.field (asMapping v) "link" with
    | .text target => .link target
    | _ => .file (bytes v)

def below (mount : String) (path : String) : Location := mount :: (Path.ofText path).parts

def root (mount : String) (tree : Value) : Node :=
  (entries tree).foldl (fun n e => n.put (node e.2) (below mount e.1))
    (.directory [(mount, .directory [])])

def failure (m : Mapping) : Remote.Failure :=
  let reason := asText (Mapping.field m "reason")
  match asText (Mapping.field m "fail") with
  | "URLError" => .unreachable reason
  | "HTTPError" => .status (asInt (Mapping.field m "code")) reason
  | "OSError" => .system (asInt (Mapping.field m "errno")) reason
  | "TimeoutError" => .timedOut reason
  | "IncompleteRead" =>
    .incomplete (asInt (Mapping.field m "read")) (match Mapping.field m "expected" with
      | .int i => some i
      | _ => none)
  | "BadStatusLine" => .badStatusLine reason
  | "InvalidURL" => .badUrl reason
  | "HTTPException" => .transfer reason
  | "RuntimeError" => .runtime reason
  | "EOFError" => .endOfFile reason
  | "KeyError" => .missingKey reason
  | "GrammarError" => .raised .grammar reason
  | "ConfigError" => .raised .config reason
  | "SchemaValidationError" => .raised .schema reason
  | "IncludeResolutionError" => .raised .resolution reason
  | "ArchDslError" => .raised .base reason
  | _ => .value reason

def answer (v : Value) : Remote.Answer :=
  match Mapping.field (asMapping v) "fail" with
  | .text _ => .failure (failure (asMapping v))
  | _ => .body (bytes v)

def places (t : FileTree) (mount : String) (v : Value) : List Location :=
  (asList v).filterMap fun p =>
    (t.canonical ⟨.root, below mount (asText p)⟩).toOption

/-- The world that a mapping describes, with its files below `mount`. -/
def world (mount : String) (bundle : Path) (bundled : Node) (m : Mapping) : World :=
  let root := (root mount (Mapping.field m "tree")).put bundled bundle.parts
  let t : FileTree := ⟨root, [mount], [], []⟩
  let current := match Mapping.field m "cwd" with
    | .text p => (t.canonical ⟨.root, below mount p⟩).toOption.getD [mount]
    | _ => [mount]
  let t := { t with
    current := current
    unlistable := places t mount (Mapping.field m "unlistable")
    unreadable := places t mount (Mapping.field m "unreadable") }
  { files := t
    bundle := bundle
    bindings := (entries (Mapping.field m "env")).map fun e => (e.1, asText e.2)
    remote := (entries (Mapping.field m "remote")).map fun e => (e.1, answer e.2)
    homes := []
    clock := fun _ => "<T>" }

end Splice.World.Snapshot
