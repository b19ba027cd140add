import Splice.Outcome
import Splice.Value.Coerce
import Splice.Value.Object

namespace Splice.Override

def segments : List Char → List (List Char)
  | [] => [[]]
  | '_' :: '_' :: s => [] :: segments s
  | c :: s => Text.glue c (segments s)

def path (name : String) : Except Fault (List String) :=
  let segs := segments name.toList
  if segs.contains [] then .error (.emptySegment name)
  else .ok (segs.map fun s => String.ofList (Text.lower s))

/-- The key for a segment: the last one that differs in case only, or the segment itself. -/
def resolve {α : Type} (m : Entries α) (segment : String) : String :=
  (m.reverse.findSome? fun e => match e.1 with
    | .text k => if Text.lowered k = segment then some k else none
    | _ => none).getD segment

/-- Give the place at `rest` the value `v`. Missing mappings on the way are made; `whole` is the
path that messages name. -/
def assign (whole : List String) (v : Value) : Mapping → List String → Except Fault Mapping
  | m, [] => .ok m
  | m, [segment] => .ok (m.insert (.text (resolve m segment)) v)
  | m, segment :: next :: rest =>
    let key := resolve m segment
    let below : Except Fault Mapping := match (m.get? (.text key)).getD .null with
      | .null => .ok []
      | .map n => .ok n
      | _ => .error (.notNested whole key)
    match below with
    | .error e => .error e
    | .ok n => match assign whole v n (next :: rest) with
      | .error e => .error e
      | .ok n' => .ok (m.insert (.text key) (.map n'))

def set (m : Mapping) (path : List String) (v : Value) : Except Fault Mapping :=
  assign path v m path

/-- The same in place: what the mapping holds at the end, also of a descent that fails. A missing
mapping is put where it belongs before the descent goes on in it. -/
def writeFrom (whole : List String) (v : Value) : Mapping → List String → Mapping × Except Fault Unit
  | m, [] => (m, .ok ())
  | m, [segment] => (m.insert (.text (resolve m segment)) v, .ok ())
  | m, segment :: next :: rest =>
    let key := resolve m segment
    match (m.get? (.text key)).getD .null with
    | .null =>
      let made := m.insert (.text key) (.map [])
      let below := writeFrom whole v [] (next :: rest)
      (made.insert (.text key) (.map below.1), below.2)
    | .map n =>
      let below := writeFrom whole v n (next :: rest)
      (m.insert (.text key) (.map below.1), below.2)
    | _ => (m, .error (.notNested whole key))

def write (m : Mapping) (path : List String) (v : Value) : Mapping × Except Fault Unit :=
  writeFrom path v m path

/-! ### Mappings that stand at several places -/

/-- The mapping in which a path goes on: an empty one where there is nothing. -/
def entered : Option Object → Option (Option Label × Objects)
  | none | some (.scalar .null) => some (none, [])
  | some (.map label n) => some (label, n)
  | some _ => none

/-- Give the place at `rest` the object `o`, and tell the labelled mapping, if any, that holds it by
that. Wherever else that mapping stands, it is the same one. -/
def place (whole : List String) (o : Object) :
    Objects → List String → Except Fault (Objects × Option (Label × Objects))
  | m, [] => .ok (m, none)
  | m, [segment] => .ok (m.insert (.text (resolve m segment)) o, none)
  | m, segment :: next :: rest =>
    let key := resolve m segment
    match entered (m.get? (.text key)) with
    | none => .error (.notNested whole key)
    | some (label, n) => match place whole o n (next :: rest) with
      | .error e => .error e
      | .ok (n', changed) =>
        let changed := changed.or (label.map (·, n'))
        .ok ((m.after changed).insert (.text key) (.map label n'), changed)

def put (m : Objects) (path : List String) (o : Object) : Except Fault Objects :=
  (place path o m path).map (·.1)

/-! ### Variables -/

def settingName? (name : String) : Option String :=
  let start := Fault.settingPrefix.toList
  if start.isPrefixOf name.toList then some (String.ofList (name.toList.drop start.length))
  else none

def settings (bindings : List (String × String)) : List (String × String) :=
  (bindings.filter fun v => (settingName? v.1).isSome).mergeSort fun a b => a.1 ≤ b.1

def apply (m : Objects) (setting : String × String) : Outcome Objects := do
  let name := (settingName? setting.1).getD ""
  if name.isEmpty then Outcome.fail .emptyName
  let p ← path name
  let v ← Coerce.value setting.2
  Outcome.log .debug .config ("Applying env override " ++ ".".intercalate p)
  put m p (.ofValue v)

/-- Apply settings in turn, up to the first that fails, and tell how it went. -/
def applyEach (m : Objects) : List (String × String) → Objects × Outcome Unit
  | [] => (m, pure ())
  | v :: vs =>
    let o := apply m v
    match o.result with
    | .error e => (m, ⟨o.trace, .error e⟩)
    | .ok m' =>
      let rest := applyEach m' vs
      (rest.1, ⟨o.trace ++ rest.2.trace, rest.2.result⟩)

def applyAll (m : Objects) (bindings : List (String × String)) : Objects × Outcome Unit :=
  applyEach m (settings bindings)

end Splice.Override
