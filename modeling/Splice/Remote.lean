import Splice.Outcome
import Splice.Text.Blank

namespace Splice.Remote

inductive Answer
  | body (bytes : List UInt8)
  | failure (what : Failure)
  deriving DecidableEq, Repr

abbrev Table := List (String × Answer)

def answer (table : Table) (url : String) : Answer :=
  (table.lookup url).getD (.failure (.unreachable "unreachable"))

def Answer.text : Answer → Except Fault String
  | .body bytes => (String.ofList <$> Text.Utf8.decode bytes).mapError .undecodable
  | .failure what => .error (.remote what)

/-! ### Addresses -/

def unwrap (url : List Char) : List Char :=
  let url := Text.trim url
  let url := if url.head? = some '<' ∧ url.getLast? = some '>' then
    Text.trim ((url.drop 1).dropLast) else url
  if "URL:".toList.isPrefixOf url then Text.trim (url.drop 4) else url

def splitLast (c : Char) (s : List Char) : Option (List Char × List Char) :=
  match s.reverse.span (· ≠ c) with
  | (_, []) => none
  | (after, _ :: before) => some (before.reverse, after.reverse)

/-- The fragment is split off the address; an empty one is lost. -/
def dropEmptyFragment (url : List Char) : List Char :=
  match splitLast '#' url with
  | some (rest, []) => rest
  | _ => url

def hasScheme (url : List Char) : Bool :=
  match url.span fun c => c ≠ '/' && c ≠ ':' with
  | ([], _) => false
  | (_, ':' :: _) => true
  | _ => false

def address (url : String) : Except Fault String :=
  let whole := unwrap url.toList
  let asked := String.ofList (dropEmptyFragment whole)
  let bare := match splitLast '#' whole with
    | some (rest, _) => rest
    | none => whole
  if hasScheme bare then .ok asked else .error (.unknownScheme asked)

/-! ### Fetching -/

abbrev Fetcher := String → Outcome String

/-- Failures of the connection, of the address and of the encoding are explained as a failure to
resolve `source`; any other passes as it is, and so does a failure to resolve. -/
def explain (source : String) (e : Fault) : Fault :=
  if e.kind.isExplained then .failed source e else e

structure Options where
  timeout : Option Number
  agent : Option String
  deriving DecidableEq, Repr

def Options.none : Options := ⟨.none, .none⟩

def Options.request (o : Options) (url : String) : Request :=
  ⟨url, o.agent.filter (!·.isEmpty), o.timeout⟩

def ask (table : Table) (o : Options) (url : String) : Outcome String := do
  let asked ← address url
  .emit (.request (o.request asked))
  (answer table asked).text

def fetch (table : Table) (o : Options) : Fetcher := fun url => do
  .log .debug .remote ("Fetching remote include " ++ url)
  (ask table o url).mapFault (explain url)

/-- A fetcher that looks the address up as it stands and explains nothing. -/
def direct (table : Table) : Fetcher := fun url => do
  .emit (.request ⟨url, none, none⟩)
  (answer table url).text

end Splice.Remote
