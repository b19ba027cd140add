import Splice.FileTree.Edit
import Splice.Log.Record
import Splice.Text.Upper

namespace Splice.Log

def Level.ofName (name : String) : Level := (ofName? (Text.uppered name)).getD info

inductive Target
  | errors
  | file (place : Path)
  deriving DecidableEq, Repr

namespace Target

def ofPath (t : FileTree) : Option Path → Except Fault Target
  | none => .ok errors
  | some p => do return file (← t.resolve p)

def prepare (t : FileTree) : Target → Except Fault FileTree
  | errors => .ok t
  | file p => do (← t.makeDirectory p.parent).openToAppend p

/-- What the preparation leaves, also where it fails: the file is missing then, but not the directories
above it that were made. -/
def left (t : FileTree) : Target → FileTree
  | errors => t
  | file p => match (file p).prepare t with
    | .ok t => t
    | .error _ => t.leftBelow p.parent.anchor p.parent.parts.reverse

end Target

structure Handler where
  serial : Nat
  /-- Whether a setup installed it, and not another party. -/
  own : Bool
  target : Target
  level : Level
  deriving DecidableEq, Repr

structure Setup where
  level : Level
  handlers : List Handler
  /-- The serial number of the handler that this setup installed. -/
  current : Option Nat
  target : Option Target
  next : Nat
  deriving DecidableEq, Repr

namespace Setup

def start : Setup := ⟨.warning, [], none, none, 0⟩

def isCurrent (s : Setup) (h : Handler) : Bool := s.current = some h.serial

def drop (s : Setup) : Setup :=
  { s with handlers := s.handlers.filter (!s.isCurrent ·), current := none }

def adjust (s : Setup) (level : Level) : Setup :=
  { s with
    handlers := s.handlers.map fun h => if s.isCurrent h then { h with level := level } else h }

def install (s : Setup) (target : Target) (level : Level) : Setup :=
  { s with
    handlers := s.handlers ++ [⟨s.next, true, target, level⟩]
    current := some s.next
    target := some target
    next := s.next + 1 }

/-- Send records to a target. Where it cannot be prepared, the old handler is gone all the same. -/
def direct (s : Setup) (t : FileTree) (target : Target) (level : Level) :
    Setup × Except Fault FileTree :=
  if s.current.isSome ∧ s.target = some target then (s.adjust level, .ok t)
  else match target.prepare t with
    | .ok t => (s.drop.install target level, .ok t)
    | .error e => (s.drop, .error e)

def configure (s : Setup) (t : FileTree) (name : String) (p : Option Path) :
    Setup × Except Fault FileTree :=
  match Target.ofPath t p with
  | .error e => (s, .error e)
  | .ok target => { s with level := Level.ofName name }.direct t target (Level.ofName name)

def left (t : FileTree) (p : Option Path) : FileTree :=
  match Target.ofPath t p with
  | .error _ => t
  | .ok target => target.left t

def reset (s : Setup) : Setup := { s.drop with target := none }

end Setup

/-! ### Delivery -/

structure Sink where
  files : FileTree
  errors : String
  /-- What the clock shows as one record after the other is made. -/
  clock : Nat → String
  /-- How many have been made. -/
  made : Nat

def Record.line (time : String) (r : Record) : String :=
  time ++ " " ++ r.level.name ++ " " ++ r.logger ++ ": " ++ r.message ++ "\n"

namespace Sink

def ofFiles (t : FileTree) (clock : Nat → String) : Sink := ⟨t, "", clock, 0⟩

def write (k : Sink) : Target → String → Sink
  | .errors, text => { k with errors := k.errors ++ text }
  | .file p, text => { k with files := k.files.appendTo p (Text.Utf8.encode text) }

def tick (k : Sink) : Sink := { k with made := k.made + 1 }

end Sink

def Handler.deliver (r : Record) (k : Sink) (h : Handler) : Sink :=
  if r.level < h.level then k else k.write h.target (r.line (k.clock k.made))

/-- Deliver a record. Warnings that no handler could take stand bare on the error output. -/
def Setup.deliver (s : Setup) (k : Sink) (r : Record) : Sink :=
  if r.level ≤ 0 ∨ r.level < s.level then k.tick
  else if s.handlers = [] then
    if r.level < .warning then k.tick else (k.write .errors (r.message ++ "\n")).tick
  else (s.handlers.foldl (Handler.deliver r) k).tick

/-- The files as one record after the other is delivered. -/
def Setup.files (s : Setup) (k : Sink) (records : List Record) : FileTree :=
  (records.foldl s.deliver k).files

end Splice.Log
