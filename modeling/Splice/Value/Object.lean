import Splice.Value.Merge

namespace Splice

/-- Where a mapping is written: in which file, and at which place in it. -/
structure Label where
  file : String
  place : List Nat
  deriving DecidableEq, Repr

/-- A value with the identity of its mappings. Mappings of one label are one mapping that stands at
several places; a mapping without a label stands at one. -/
inductive Object
  | scalar (k : Key)
  | list (items : List Object)
  | map (label : Option Label) (entries : List (Key × Object))
  deriving Repr, Inhabited

abbrev Objects := Entries Object

mutual
def Object.decEq : (a b : Object) → Decidable (a = b)
  | .scalar k, .scalar l => if h : k = l then isTrue (by rw [h]) else isFalse (by simp [h])
  | .list as, .list bs => match Object.decEqList as bs with
    | isTrue h => isTrue (by rw [h])
    | isFalse h => isFalse (by simp [h])
  | .map l as, .map l' bs =>
    if hl : l = l' then match Object.decEqMap as bs with
      | isTrue h => isTrue (by rw [hl, h])
      | isFalse h => isFalse (by simp [h])
    else isFalse (by simp [hl])
  | .scalar _, .list _ | .scalar _, .map _ _ | .list _, .scalar _ | .list _, .map _ _
  | .map _ _, .scalar _ | .map _ _, .list _ => isFalse (by simp)

def Object.decEqList : (as bs : List Object) → Decidable (as = bs)
  | [], [] => isTrue rfl
  | [], _ :: _ => isFalse (by simp)
  | _ :: _, [] => isFalse (by simp)
  | a :: as, b :: bs => match Object.decEq a b, Object.decEqList as bs with
    | isTrue h, isTrue hs => isTrue (by rw [h, hs])
    | isFalse h, _ => isFalse (by simp [h])
    | _, isFalse hs => isFalse (by simp [hs])

def Object.decEqMap : (as bs : List (Key × Object)) → Decidable (as = bs)
  | [], [] => isTrue rfl
  | [], _ :: _ => isFalse (by simp)
  | _ :: _, [] => isFalse (by simp)
  | (k, a) :: as, (l, b) :: bs =>
    if hk : k = l then match Object.decEq a b, Object.decEqMap as bs with
      | isTrue h, isTrue hs => isTrue (by rw [hk, h, hs])
      | isFalse h, _ => isFalse (by simp [h])
      | _, isFalse hs => isFalse (by simp [hs])
    else isFalse (by simp [hk])
end

instance : DecidableEq Object := Object.decEq

def Key.value : Key → Value
  | .null => .null
  | .bool b => .bool b
  | .int i => .int i
  | .float d => .float d
  | .moment m => .moment m
  | .text s => .text s

mutual
def Object.value : Object → Value
  | .scalar k => k.value
  | .list os => .list (Object.valuesOf os)
  | .map _ es => .map (Entries.values es)

def Object.valuesOf : List Object → List Value
  | [] => []
  | o :: os => o.value :: Object.valuesOf os

def Entries.values : Entries Object → Mapping
  | [] => []
  | (k, o) :: es => (k, o.value) :: Entries.values es
end

mutual
def Object.ofValue : Value → Object
  | .null => .scalar .null
  | .bool b => .scalar (.bool b)
  | .int i => .scalar (.int i)
  | .float d => .scalar (.float d)
  | .moment m => .scalar (.moment m)
  | .text s => .scalar (.text s)
  | .list vs => .list (Object.ofValues vs)
  | .map es => .map none (Object.ofEntries es)

def Object.ofValues : List Value → List Object
  | [] => []
  | v :: vs => Object.ofValue v :: Object.ofValues vs

def Object.ofEntries : List (Key × Value) → Objects
  | [] => []
  | (k, v) :: es => (k, Object.ofValue v) :: Object.ofEntries es
end

/-! ### Merging -/

mutual
/-- Lay the entries of the second mapping over the first. What has been merged is a new mapping; all
else stays what it is. -/
def Entries.overlay (base : Objects) : Entries Object → Objects
  | [] => base
  | (k, o) :: es => Entries.overlay (base.insert k (o.over (base.get? k))) es

def Object.over : Object → Option Object → Object
  | .map _ es, some (.map _ m) => .map none (Entries.overlay m es)
  | o, _ => o
end

/-! ### Changes -/

mutual
/-- The object where the mapping of the label holds other entries. -/
def Object.renewed (label : Label) (n : Objects) : Object → Object
  | .scalar k => .scalar k
  | .list os => .list (Object.renewedItems label n os)
  | .map l es => .map l (if l = some label then n else Entries.renewed label n es)

def Object.renewedItems (label : Label) (n : Objects) : List Object → List Object
  | [] => []
  | o :: os => o.renewed label n :: Object.renewedItems label n os

def Entries.renewed (label : Label) (n : Objects) : Entries Object → Objects
  | [] => []
  | (k, o) :: es => (k, o.renewed label n) :: Entries.renewed label n es
end

def Entries.after (m : Objects) : Option (Label × Objects) → Objects
  | none => m
  | some (label, n) => Entries.renewed label n m

end Splice
