import Splice.Arguments

namespace Splice.Form

def width : Nat := 78

def greatestColumn : Nat := 24

def spaces (n : Nat) : String := String.ofList (List.replicate n ' ')

/-- Fill lines with words, a blank between two of them. The first line has `used` columns taken. A
word that is too long has a line of its own. -/
def fillLines (room : Nat) (used : Nat) (line : List String) : List String → List (List String)
  | [] => if line = [] then [] else [line]
  | w :: ws =>
    if room < used + w.length ∧ line ≠ [] then line :: fillLines room (w.length + 1) [w] ws
    else fillLines room (used + w.length + 1) (line ++ [w]) ws

def filled (room : Nat) (words : List String) : List String :=
  (fillLines room 0 [] words).map (" ".intercalate ·)

/-! ### Usage -/

def flagUsage (f : Flag) : String :=
  let name := f.names.head?.getD ""
  match f.effect with
  | .value placeholder => "[" ++ name ++ " " ++ placeholder ++ "]"
  | _ => "[" ++ name ++ "]"

def operandUsage (f : Form) : List String :=
  if f.commands = [] then f.operands.map (·.name) else [commandName, "..."]

def usagePrefix (f : Form) : String := "usage: " ++ f.program

def usage (f : Form) : String :=
  let flags := f.flags.map flagUsage
  let whole := " ".intercalate (f.usagePrefix :: flags ++ f.operandUsage)
  if whole.length ≤ width then whole ++ "\n"
  else
    let indent := f.usagePrefix.length + 1
    let lines := filled (width - indent) flags ++ filled (width - indent) f.operandUsage
    f.usagePrefix ++ " " ++ ("\n" ++ spaces indent).intercalate lines ++ "\n"

/-! ### Help -/

structure Entry where
  indent : Nat
  title : String
  summary : String
  deriving DecidableEq, Repr

def flagTitle (f : Flag) : String :=
  match f.effect with
  | .value placeholder => ", ".intercalate (f.names.map (· ++ " " ++ placeholder))
  | _ => ", ".intercalate f.names

def sections (f : Form) : List (String × List Entry) :=
  let entries (indent : Nat) (os : List Operand) := os.map fun o => Entry.mk indent o.name o.summary
  [("positional arguments", entries 2 f.operands),
   ("options", f.flags.map fun g => ⟨2, flagTitle g, g.summary⟩),
   ("commands", if f.commands = [] then [] else ⟨2, commandName, ""⟩ :: entries 4 f.commands)]

def column (f : Form) : Nat :=
  let lengths := f.sections.flatMap fun s => s.2.map fun e => 2 + e.title.length
  min greatestColumn ((lengths.max?.getD 0) + 2)

def entryText (column : Nat) (e : Entry) : List String :=
  let title := spaces e.indent ++ e.title
  match filled (width - column) ((e.summary.splitOn " ").filter (· ≠ "")) with
  | [] => [title]
  | first :: more =>
    let below := more.map (spaces column ++ ·)
    if title.length + 2 ≤ column then (title ++ spaces (column - title.length) ++ first) :: below
    else title :: (spaces column ++ first) :: below

def sectionText (column : Nat) (s : String × List Entry) : List String :=
  if s.2 = [] then [] else "" :: (s.1 ++ ":") :: s.2.flatMap (entryText column)

def helpPage (f : Form) : String :=
  let lines := ["", f.description] ++ f.sections.flatMap (sectionText f.column)
  f.usage ++ "".intercalate (lines.map (· ++ "\n"))

end Splice.Form
