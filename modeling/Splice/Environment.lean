import Splice.Fault

namespace Splice

/-- An environment is of the plain class, or of a variant, which adds nothing to it. -/
structure Environment where
  variant : Option String
  name : String
  deriving DecidableEq, Repr

namespace Environment

def ofValue : Value → Except Fault Environment
  | .text name => .ok ⟨none, name⟩
  | v => .error (.nameNoText v.kind)

def plainTitle : String := "DeploymentEnvironment"

def title (e : Environment) : String := e.variant.getD plainTitle

def canonicalName (e : Environment) : String := e.name

def parent (_ : Environment) : Option Environment := none

def defaultTags (_ : Environment) : List String := []

def shown (e : Environment) : String := plainTitle ++ "(name=" ++ Text.quoted e.name ++ ")"

/-! ### Fields -/

def read (e : Environment) (field : String) : Except Fault Value :=
  match field with
  | "name" | "_name" => .ok (.text e.name)
  | "canonical_name" => .ok (.text e.canonicalName)
  | "parent" => .ok .null
  | "default_tags" => .ok (.list (e.defaultTags.map .text))
  | _ => .error (.noSuchField e.title field)

inductive Change
  | assign (field : String) (v : Value)
  | delete (field : String)

def change (e : Environment) (_ : Change) : Environment × Except Fault Unit :=
  (e, .error (.immutable e.title))

inductive Capability
  | identifiable
  | taggable
  | parented
  | element
  deriving DecidableEq, Repr

def Capability.fields : Capability → List String
  | identifiable => ["name", "canonical_name"]
  | taggable => ["default_tags"]
  | parented => ["parent"]
  | element => ["name", "canonical_name", "default_tags", "parent"]

def offers (e : Environment) (c : Capability) : Bool :=
  c.fields.all fun field => (e.read field).isOk

/-! ### Identity -/

/-- Whether `a` takes itself for equal to `b`: it knows only those of its own class. -/
def opinion (a b : Environment) : Option Bool :=
  if a.variant = b.variant then some (a.name = b.name) else none

/-- Either of the two may tell; if neither knows the other they differ. -/
def equal (a b : Environment) : Bool := ((a.opinion b).or (b.opinion a)).getD false

instance : BEq Environment := ⟨equal⟩

instance : Hashable Environment := ⟨fun e => hash e.name⟩

def isIn (es : List Environment) (e : Environment) : Bool :=
  es.any fun f => hash f = hash e && f == e

def distinct (es : List Environment) : List Environment :=
  es.foldl (fun set e => if isIn set e then set else set ++ [e]) []

def index (es : List Environment) (e : Environment) : Except Fault Nat :=
  match es.findIdx? (· == e) with
  | some i => .ok i
  | none => .error (.notListed e.shown)

end Environment

end Splice
