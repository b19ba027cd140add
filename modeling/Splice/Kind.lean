namespace Splice

inductive Kind
  | base
  | grammar
  | resolution
  | config
  | schema
  | permission
  | absent
  | existing
  | notDirectory
  | isDirectory
  | brokenPipe
  | connectionReset
  | connectionRefused
  | connectionAborted
  | blocking
  | interrupted
  | noChild
  | noProcess
  | timeout
  | system
  | url
  | status
  | incompleteRead
  | badStatusLine
  | badUrl
  | transfer
  | undecodable
  | value
  | key
  | index
  | type
  | noAttribute
  | overflow
  | recursion
  | runtime
  | endOfFile
  | yaml
  | validation
  | exception
  /-- A kind of its own, by its name, below another one, in whose families it is. -/
  | derived (name : String) (above : Kind)
  deriving DecidableEq, Repr

namespace Kind

def name : Kind → String
  | base => "ArchDslError"
  | grammar => "GrammarError"
  | resolution => "IncludeResolutionError"
  | config => "ConfigError"
  | schema => "SchemaValidationError"
  | permission => "PermissionError"
  | absent => "FileNotFoundError"
  | existing => "FileExistsError"
  | notDirectory => "NotADirectoryError"
  | isDirectory => "IsADirectoryError"
  | brokenPipe => "BrokenPipeError"
  | connectionReset => "ConnectionResetError"
  | connectionRefused => "ConnectionRefusedError"
  | connectionAborted => "ConnectionAbortedError"
  | blocking => "BlockingIOError"
  | interrupted => "InterruptedError"
  | noChild => "ChildProcessError"
  | noProcess => "ProcessLookupError"
  | timeout => "TimeoutError"
  | system => "OSError"
  | url => "URLError"
  | status => "HTTPError"
  | incompleteRead => "IncompleteRead"
  | badStatusLine => "BadStatusLine"
  | badUrl => "InvalidURL"
  | transfer => "HTTPException"
  | undecodable => "UnicodeDecodeError"
  | value => "ValueError"
  | key => "KeyError"
  | index => "IndexError"
  | type => "TypeError"
  | noAttribute => "AttributeError"
  | overflow => "OverflowError"
  | recursion => "RecursionError"
  | runtime => "RuntimeError"
  | endOfFile => "EOFError"
  | yaml => "YAMLError"
  | validation => "ValidationError"
  | exception => "Exception"
  | derived name _ => name

def ofCode : Int → Kind
  | 1 => permission
  | 2 => absent
  | 3 => noProcess
  | 4 => interrupted
  | 10 => noChild
  | 11 => blocking
  | 13 => permission
  | 17 => existing
  | 20 => notDirectory
  | 21 => isDirectory
  | 32 => brokenPipe
  | 103 => connectionAborted
  | 104 => connectionReset
  | 108 => brokenPipe
  | 110 => timeout
  | 111 => connectionRefused
  | 114 => blocking
  | 115 => blocking
  | _ => system

/-- The failures of this library's own making, which commands report instead of passing on. -/
def isOwn : Kind → Bool
  | base | grammar | resolution | config | schema => true
  | derived _ above => above.isOwn
  | _ => false

def isSystem : Kind → Bool
  | permission | absent | existing | notDirectory | isDirectory | brokenPipe | connectionReset
  | connectionRefused | connectionAborted | blocking | interrupted | noChild | noProcess | timeout
  | system | url | status => true
  | derived _ above => above.isSystem
  | _ => false

def isValue : Kind → Bool
  | value | undecodable | grammar | config | schema => true
  | derived _ above => above.isValue
  | _ => false

def isTransfer : Kind → Bool
  | incompleteRead | badStatusLine | badUrl | transfer => true
  | derived _ above => above.isTransfer
  | _ => false

def isRuntime : Kind → Bool
  | runtime | recursion | resolution => true
  | derived _ above => above.isRuntime
  | _ => false

def isResolution : Kind → Bool
  | resolution => true
  | derived _ above => above.isResolution
  | _ => false

def isExplained (k : Kind) : Bool := k.isSystem || k.isValue || k.isTransfer

end Kind

end Splice
