import Splice.Text.Digit
import Splice.Text.Quoted
import Splice.Text.Split

namespace Splice

inductive Effect
  | help
  | version
  | switch
  /-- It takes a value, which the usage names. -/
  | value (placeholder : String)
  deriving DecidableEq, Repr

structure Flag where
  /-- Short and long spellings, the dashes included. -/
  names : List String
  effect : Effect
  summary : String
  deriving DecidableEq, Repr

namespace Flag

def key (f : Flag) : String := f.names.getLast?.getD ""

def title (f : Flag) : String := "/".intercalate f.names

def takesValue (f : Flag) : Bool :=
  match f.effect with
  | .value _ => true
  | _ => false

end Flag

structure Operand where
  name : String
  summary : String
  deriving DecidableEq, Repr

/-- A form takes operands, or else a command, with arguments of its own. -/
structure Form where
  program : String
  description : String
  flags : List Flag
  operands : List Operand
  commands : List Operand
  deriving DecidableEq, Repr

inductive Halt
  | help
  | version
  | misuse (message : String)
  deriving DecidableEq, Repr

namespace Form

def table (f : Form) : List (String × Flag) :=
  f.flags.flatMap fun flag => flag.names.map fun name => (name, flag)

def flag? (f : Form) (name : String) : Option Flag := f.table.lookup name

def commandName : String := "<command>"

end Form

namespace Arguments

/-! ### Flags -/

inductive Attached
  | nothing
  /-- Right behind a short flag. -/
  | joined (s : List Char)
  | afterEquals (s : List Char)
  deriving DecidableEq, Repr

structure Reading where
  flag : Option Flag
  name : String
  attached : Attached
  deriving DecidableEq, Repr

def splitEquals (s : List Char) : String × Attached :=
  match s.span (· ≠ '=') with
  | (name, _ :: value) => (String.ofList name, .afterEquals value)
  | (name, []) => (String.ofList name, .nothing)

def isLong (name : List Char) : Bool := ['-', '-'].isPrefixOf name

def longReadings (f : Form) (s : List Char) : List Reading :=
  let (start, attached) := splitEquals s
  (f.table.filter fun e => start.toList.isPrefixOf e.1.toList).map fun e =>
    ⟨some e.2, e.1, attached⟩

def shortReadings (f : Form) (s : List Char) : List Reading :=
  f.table.filterMap fun e =>
    if e.1.toList = s.take 2 then some ⟨some e.2, e.1, .joined (s.drop 2)⟩
    else if s.isPrefixOf e.1.toList then some ⟨some e.2, e.1, .nothing⟩
    else none

def isNegativeNumber (s : List Char) : Bool :=
  match s with
  | '-' :: s =>
    let s := if s.getLast? = some '\n' then s.dropLast else s
    match s.span Text.isDigit with
    | (_ :: _, []) => true
    | (_, '.' :: fraction) => fraction ≠ [] && fraction.all Text.isDigit
    | _ => false
  | _ => false

/-- An argument that could be a flag but is not known as one is an operand if it is a number or
holds a blank. -/
def unknown (a : String) : Option Reading :=
  if isNegativeNumber a.toList || a.toList.contains ' ' then none else some ⟨none, a, .nothing⟩

def reading (f : Form) (a : String) : Except Halt (Option Reading) :=
  let s := a.toList
  if s.head? ≠ some '-' then .ok none
  else match f.flag? a with
    | some flag => .ok (some ⟨some flag, a, .nothing⟩)
    | none =>
      if s.length = 1 then .ok none
      else
        let (name, attached) := splitEquals s
        match attached, f.flag? name with
        | .afterEquals v, some flag => .ok (some ⟨some flag, name, .afterEquals v⟩)
        | _, _ => match if isLong s then longReadings f s else shortReadings f s with
          | [] => .ok (unknown a)
          | [r] => .ok (some r)
          | rs => .error (.misuse ("ambiguous option: " ++ a ++ " could match " ++
              ", ".intercalate (rs.map (·.name))))

inductive Role
  | operand
  | dashes
  | flag (r : Reading)
  deriving DecidableEq, Repr

structure Item where
  text : String
  role : Role
  deriving DecidableEq, Repr

def items (f : Form) : List String → Except Halt (List Item)
  | [] => .ok []
  | a :: rest =>
    if a = "--" then .ok (⟨a, .dashes⟩ :: rest.map (⟨·, .operand⟩))
    else do
      let role := match ← reading f a with
        | none => Role.operand
        | some r => .flag r
      return ⟨a, role⟩ :: (← items f rest)

/-! ### Uses of flags -/

inductive Use
  | on (flag : Flag)
  | given (flag : Flag) (value : String)
  deriving DecidableEq, Repr

structure Uses where
  uses : List Use
  extra : Option String
  waiting : Option Flag
  deriving DecidableEq, Repr

def fault (flag : Flag) (message : String) : Halt :=
  .misuse ("argument " ++ flag.title ++ ": " ++ message)

def Uses.after (flag : Flag) (u : Uses) : Uses := { u with uses := .on flag :: u.uses }

def single (flag : Flag) : Uses :=
  if flag.takesValue then ⟨[], none, some flag⟩ else ⟨[.on flag], none, none⟩

/-- The uses that a flag and what is attached to it come to. Behind a short flag that takes no value
stand further short flags. -/
def attach (f : Form) (flag : Flag) (long equals : Bool) : List Char → Except Halt Uses
  | [] => if flag.takesValue then .ok ⟨[.given flag ""], none, none⟩
    else .error (fault flag "ignored explicit argument ''")
  | c :: s =>
    if flag.takesValue then .ok ⟨[.given flag (String.ofList (c :: s))], none, none⟩
    else if long || equals || c = '-' then
      .error (fault flag ("ignored explicit argument " ++ Text.quoted (String.ofList (c :: s))))
    else match f.flag? (String.ofList ['-', c]) with
      | none => .ok ⟨[.on flag], some (String.ofList ('-' :: c :: s)), none⟩
      | some next => match s with
        | [] => .ok ((single next).after flag)
        | '=' :: value => (attach f next false true value).map (.after flag)
        | more => (attach f next false false more).map (.after flag)

def uses (f : Form) (flag : Flag) (r : Reading) : Except Halt Uses :=
  let long := isLong r.name.toList
  match r.attached with
  | .nothing => .ok (single flag)
  | .joined s => attach f flag long false s
  | .afterEquals s => attach f flag long true s

/-! ### What was given -/

structure Given where
  switches : List String
  values : List (String × String)
  /-- A lone double dash among the operands is none. -/
  operands : List (Option String)
  command : List String
  extras : List String
  deriving DecidableEq, Repr

namespace Given

def none : Given := ⟨[], [], [], [], []⟩

def addExtra (g : Given) (a : String) : Given := { g with extras := g.extras ++ [a] }

def addOperand (g : Given) (a : Option String) : Given := { g with operands := g.operands ++ [a] }

def use (g : Given) : Use → Except Halt Given
  | .given flag v => .ok { g with values := (flag.key, v) :: g.values }
  | .on flag => match flag.effect with
    | .help => .error .help
    | .version => .error .version
    | _ => .ok { g with switches := flag.key :: g.switches }

def has (g : Given) (name : String) : Bool := g.switches.contains name

def value? (g : Given) (name : String) : Option String := g.values.lookup name

end Given

structure Progress where
  given : Given
  /-- Uses that wait for the value of the last flag. -/
  waiting : Option (List Use × Flag)
  /-- A double dash was met that belongs to the next operand. -/
  opened : Bool
  /-- An operand was the last item. -/
  taken : Bool
  deriving DecidableEq, Repr

namespace Progress

def start : Progress := ⟨.none, none, false, false⟩

def hasRoom (f : Form) (p : Progress) : Bool :=
  f.commands ≠ [] || p.given.operands.length < f.operands.length

def apply (p : Progress) (us : List Use) : Except Halt Progress := do
  return { p with given := ← us.foldlM Given.use p.given, waiting := none, taken := false }

def flag (f : Form) (p : Progress) (text : String) (r : Reading) : Except Halt Progress :=
  match r.flag with
  | none => .ok { p with given := p.given.addExtra text, taken := false }
  | some flag => do
    let u ← uses f flag r
    match u.waiting with
    | some last => return { p with waiting := some (u.uses, last), taken := false }
    | none =>
      let p ← p.apply u.uses
      return { p with given := u.extra.elim p.given p.given.addExtra }

def operand (f : Form) (p : Progress) (text : String) : Progress :=
  if f.commands ≠ [] then
    { p with given := { p.given with command := if p.opened then ["--", text] else [text] } }
  else if !p.hasRoom f then { p with given := p.given.addExtra text, taken := false }
  else
    let value := if text = "--" ∧ !p.opened then none else some text
    { p with given := p.given.addOperand value, opened := false, taken := true }

/-- A double dash belongs to the operand before it, or else to the one behind it. -/
def dashes (f : Form) (p : Progress) (text : String) : Progress :=
  if p.taken then { p with taken := false }
  else if p.hasRoom f then { p with opened := true }
  else { p with given := p.given.addExtra text }

def step (f : Form) (p : Progress) (i : Item) : Except Halt Progress :=
  if p.given.command ≠ [] then
    .ok { p with given := { p.given with command := p.given.command ++ [i.text] } }
  else match p.waiting, i.role with
    | some (us, flag), .operand => p.apply (us ++ [.given flag i.text])
    | some (_, flag), _ => .error (fault flag "expected one argument")
    | none, .flag r => p.flag f i.text r
    | none, .operand => .ok (p.operand f i.text)
    | none, .dashes => .ok (p.dashes f i.text)

def finish (p : Progress) : Except Halt Given :=
  match p.waiting with
  | some (_, flag) => .error (fault flag "expected one argument")
  | none => .ok (if p.opened ∧ p.given.command = [] then p.given.addExtra "--" else p.given)

end Progress

def given (f : Form) (arguments : List String) : Except Halt Given := do
  let g ← (← (← items f arguments).foldlM (Progress.step f) .start).finish
  match f.operands.drop g.operands.length with
  | [] => return g
  | missing => throw (.misuse ("the following arguments are required: " ++
      ", ".intercalate (missing.map (·.name))))

end Arguments

end Splice
