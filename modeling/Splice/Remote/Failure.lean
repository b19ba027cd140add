import Splice.Kind
import Splice.Text.Quoted

namespace Splice.Remote

inductive Failure
  | unreachable (reason : String)
  | status (code : Int) (reason : String)
  | system (code : Int) (reason : String)
  | timedOut (reason : String)
  | incomplete (read : Int) (expected : Option Int)
  | badStatusLine (line : String)
  | badUrl (reason : String)
  | transfer (reason : String)
  | value (reason : String)
  | runtime (reason : String)
  | endOfFile (reason : String)
  | missingKey (key : String)
  /-- One of this library's own failures, raised by the fetcher itself, or one of any other kind. -/
  | raised (kind : Kind) (message : String)
  deriving DecidableEq, Repr

namespace Failure

def kind : Failure → Kind
  | unreachable _ => .url
  | status _ _ => .status
  | system code _ => .ofCode code
  | timedOut _ => .timeout
  | incomplete _ _ => .incompleteRead
  | badStatusLine _ => .badStatusLine
  | badUrl _ => .badUrl
  | transfer _ => .transfer
  | value _ => .value
  | runtime _ => .runtime
  | endOfFile _ => .endOfFile
  | missingKey _ => .key
  | raised kind _ => kind

def message : Failure → String
  | unreachable reason => "<urlopen error " ++ reason ++ ">"
  | status code reason => "HTTP Error " ++ toString code ++ ": " ++ reason
  | system code reason => "[Errno " ++ toString code ++ "] " ++ reason
  | incomplete read none => "IncompleteRead(" ++ toString read ++ " bytes read)"
  | incomplete read (some expected) =>
    "IncompleteRead(" ++ toString read ++ " bytes read, " ++ toString expected ++ " more expected)"
  | badStatusLine line => if line.isEmpty then Text.quoted line else line
  | missingKey key => Text.quoted key
  | timedOut reason | badUrl reason | transfer reason | value reason | runtime reason
  | endOfFile reason => reason
  | raised _ message => message

end Failure

end Splice.Remote
