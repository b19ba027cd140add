namespace Splice.Log

abbrev Level := Int

namespace Level

def debug : Level := 10

def info : Level := 20

def warning : Level := 30

def error : Level := 40

def critical : Level := 50

def name : Level → String
  | 0 => "NOTSET"
  | 10 => "DEBUG"
  | 20 => "INFO"
  | 30 => "WARNING"
  | 40 => "ERROR"
  | 50 => "CRITICAL"
  | n => "Level " ++ toString n

def ofName? : String → Option Level
  | "CRITICAL" => some critical
  | "FATAL" => some critical
  | "ERROR" => some error
  | "WARN" => some warning
  | "WARNING" => some warning
  | "INFO" => some info
  | "DEBUG" => some debug
  | "NOTSET" => some 0
  | _ => none

end Level

inductive Origin
  | config
  | includes
  | remote
  deriving DecidableEq, Repr

def Origin.logger : Origin → String
  | .config => "archdsl.core.config.manager"
  | .includes => "archdsl.core.dsl.includes"
  | .remote => "archdsl.core.dsl.remote"

structure Record where
  level : Level
  logger : String
  message : String
  deriving DecidableEq, Repr

end Splice.Log
