import Splice.Yaml.Token

namespace Splice.Yaml

inductive Tag
  | none
  /-- A single exclamation mark: the kind is found as for a plain scalar. -/
  | open
  | named (name : String)
  deriving DecidableEq, Repr

structure Properties where
  anchor : Option String
  tag : Tag
  /-- The way to the node from the last step to the first, once it is known. -/
  place : List Nat
  deriving DecidableEq, Repr

inductive Node
  | alias (name : String)
  | scalar (properties : Properties) (plain : Bool) (text : String)
  | list (properties : Properties) (items : List Node)
  | map (properties : Properties) (entries : List (Node × Node))
  deriving Repr, Inhabited

namespace Node

def noProperties : Properties := ⟨none, .none, []⟩

def empty : Node := .scalar noProperties true ""

abbrev Handles := List (String × String)

def tagOf (suffix : String) : Tag := if suffix = "!" then .open else .named suffix

def resolveTag (handles : Handles) : Option String → String → Option Tag
  | none, suffix => some (tagOf suffix)
  | some handle, suffix => (handles.lookup handle).map fun start => tagOf (start ++ suffix)

def properties (handles : Handles) : List Token → Option (Properties × List Token)
  | .anchor a :: .tag h s :: ts => (resolveTag handles h s).map fun t => (⟨some a, t, []⟩, ts)
  | .anchor a :: ts => some (⟨some a, .none, []⟩, ts)
  | .tag h s :: .anchor a :: ts => (resolveTag handles h s).map fun t => (⟨some a, t, []⟩, ts)
  | .tag h s :: ts => (resolveTag handles h s).map fun t => (⟨none, t, []⟩, ts)
  | ts => some (noProperties, ts)

/-- Where a node stands: in brackets, in a block, or in a block where a list needs no further
indentation. -/
inductive Place
  | flow
  | block
  | blockValue
  deriving DecidableEq, Repr

def isAbsent (ends : List Token) : List Token → Bool
  | [] => false
  | t :: _ => ends.contains t

mutual
def read (handles : Handles) : Nat → Place → List Token → Option (Node × List Token)
  | 0, _, _ => none
  | _ + 1, _, .alias name :: ts => some (.alias name, ts)
  | n + 1, place, ts => do
    let (p, ts) ← properties handles ts
    match place, ts with
    | .blockValue, .blockEntry :: _ =>
      let (items, ts) ← readLooseItems handles n ts
      return (.list p items, ts)
    | _, .scalar plain text :: ts => return (.scalar p plain text, ts)
    | _, .flowListStart :: ts =>
      let (items, ts) ← readFlowItems handles n true ts
      return (.list p items, ts)
    | _, .flowMapStart :: ts =>
      let (entries, ts) ← readFlowEntries handles n true ts
      return (.map p entries, ts)
    | .flow, _ => leaf p ts
    | _, .blockListStart :: ts =>
      let (items, ts) ← readItems handles n ts
      return (.list p items, ts)
    | _, .blockMapStart :: ts =>
      let (entries, ts) ← readEntries handles n ts
      return (.map p entries, ts)
    | _, _ => leaf p ts
where
  /-- Nothing may stand behind an anchor or a tag. -/
  leaf (p : Properties) (ts : List Token) : Option (Node × List Token) :=
    if p = noProperties then none else some (.scalar p (p.tag = .none) "", ts)

def readOr (handles : Handles) : Nat → Place → List Token → List Token →
    Option (Node × List Token)
  | 0, _, _, _ => none
  | n + 1, place, ends, ts =>
    if isAbsent ends ts then some (empty, ts) else read handles n place ts

def readItems (handles : Handles) : Nat → List Token → Option (List Node × List Token)
  | n + 1, .blockEntry :: ts => do
    let (v, ts) ← readOr handles n .block [.blockEntry, .blockEnd] ts
    let (vs, ts) ← readItems handles n ts
    return (v :: vs, ts)
  | _ + 1, .blockEnd :: ts => some ([], ts)
  | _, _ => none

def readLooseItems (handles : Handles) : Nat → List Token → Option (List Node × List Token)
  | 0, _ => none
  | n + 1, .blockEntry :: ts => do
    let (v, ts) ← readOr handles n .block [.blockEntry, .key, .value, .blockEnd] ts
    let (vs, ts) ← readLooseItems handles n ts
    return (v :: vs, ts)
  | _ + 1, ts => some ([], ts)

def readValue (handles : Handles) : Nat → Place → List Token → List Token →
    Option (Node × List Token)
  | n + 1, place, ends, .value :: ts => readOr handles n place ends ts
  | _ + 1, _, _, ts => some (empty, ts)
  | 0, _, _, _ => none

def readEntries (handles : Handles) : Nat → List Token → Option (List (Node × Node) × List Token)
  | n + 1, .key :: ts => do
    let (k, ts) ← readOr handles n .blockValue [.key, .value, .blockEnd] ts
    let (v, ts) ← readValue handles n .blockValue [.key, .value, .blockEnd] ts
    let (es, ts) ← readEntries handles n ts
    return ((k, v) :: es, ts)
  | _ + 1, .blockEnd :: ts => some ([], ts)
  | _, _ => none

/-- The items of a list in brackets; a key makes an item a mapping of one entry. -/
def readFlowItems (handles : Handles) : Nat → Bool → List Token →
    Option (List Node × List Token)
  | 0, _, _ => none
  | _ + 1, _, .flowListEnd :: ts => some ([], ts)
  | n + 1, first, ts => do
    match ← afterComma first ts with
    | .flowListEnd :: ts => return ([], ts)
    | .key :: ts =>
      let (k, ts) ← readOr handles n .flow [.value, .flowEntry, .flowListEnd] ts
      let (v, ts) ← readValue handles n .flow [.flowEntry, .flowListEnd] ts
      let (vs, ts) ← readFlowItems handles n false ts
      return (.map noProperties [(k, v)] :: vs, ts)
    | ts =>
      let (v, ts) ← read handles n .flow ts
      let (vs, ts) ← readFlowItems handles n false ts
      return (v :: vs, ts)

def readFlowEntries (handles : Handles) : Nat → Bool → List Token →
    Option (List (Node × Node) × List Token)
  | 0, _, _ => none
  | _ + 1, _, .flowMapEnd :: ts => some ([], ts)
  | n + 1, first, ts => do
    match ← afterComma first ts with
    | .flowMapEnd :: ts => return ([], ts)
    | .key :: ts =>
      let (k, ts) ← readOr handles n .flow [.value, .flowEntry, .flowMapEnd] ts
      let (v, ts) ← readValue handles n .flow [.flowEntry, .flowMapEnd] ts
      let (es, ts) ← readFlowEntries handles n false ts
      return ((k, v) :: es, ts)
    | ts =>
      let (k, ts) ← read handles n .flow ts
      let (es, ts) ← readFlowEntries handles n false ts
      return ((k, empty) :: es, ts)

def afterComma (first : Bool) (ts : List Token) : Option (List Token) :=
  if first then some ts else match ts with
    | .flowEntry :: ts => some ts
    | _ => none
end

/-! ### Documents -/

def defaultHandles : Handles := [("!", "!"), ("!!", "tag:yaml.org,2002:")]

/-- Read the directives before a document: at most one version, which is a first one, and no handle
twice. -/
def directives : Bool → Handles → List Token → Option (Handles × List Token)
  | versioned, hs, .directive d :: ts => match d with
    | .version major =>
      if versioned ∨ major ≠ 1 then none else directives true hs ts
    | .tag handle start =>
      if (hs.lookup handle).isSome then none else directives versioned ((handle, start) :: hs) ts
    | .other => directives versioned hs ts
  | _, hs, ts => some (hs ++ defaultHandles, ts)

def skipEnds : List Token → List Token
  | .documentEnd :: ts => skipEnds ts
  | ts => ts

def startsDocument : List Token → Bool
  | .directive _ :: _ => true
  | .documentStart :: _ => true
  | _ => false

def isEmptyDocument : List Token → Bool
  | [] => true
  | .documentEnd :: _ => true
  | ts => startsDocument ts

/-- The only document of a text, if there is one. -/
def ofTokens? (ts : List Token) : Option (Option Node) :=
  let depth := 3 * ts.length + 3
  if ts = [] then some none
  else do
    let (node, ts) ←
      if startsDocument ts then
        match ← directives false [] ts with
        | (hs, .documentStart :: ts) =>
          if isEmptyDocument ts then some (empty, ts) else read hs depth .block ts
        | _ => none
      else read defaultHandles depth .block ts
    if skipEnds ts = [] then return some node else none

end Node

end Splice.Yaml
