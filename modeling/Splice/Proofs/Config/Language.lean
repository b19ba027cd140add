import Splice.Proofs.Config.Failures
import Splice.Proofs.Schema.Violations
import Splice.Proofs.Text.Utf8

namespace Splice.Config

open Outcome Results Schema Value

variable {w : World} {v u : Value} {m : Mapping} {path : List String}

/-! ### The language of configurations -/

/-- Nothing, or a number that is not zero or below; one that is not a number is not compared. -/
inductive IsTimeout : Value → Prop
  | none : IsTimeout .null
  | whole {i : Int} (above : 0 < i) : IsTimeout (.int i)
  | double {d : Double} (above : d = .nan ∨ d.isPositive = true) : IsTimeout (.float d)

inductive IsText : Value → Prop
  | text (s : String) : IsText (.text s)

inductive IsOptionalText : Value → Prop
  | none : IsOptionalText .null
  | text (s : String) : IsOptionalText (.text s)

/-- The mapping has no keys but the names. -/
def HasOnly (names : List String) (m : Mapping) : Prop := ∀ e ∈ m, ∃ name ∈ names, e.1 = .text name

/-- What the mapping has at the name, if anything, is as it should be. -/
def Admits (m : Mapping) (name : String) (P : Value → Prop) : Prop :=
  ∀ v, m.get? (.text name) = some v → P v

inductive IsFetch : Value → Prop
  | mapping {m : Mapping} (only : HasOnly ["timeoutSeconds", "userAgent"] m)
      (timeout : Admits m "timeoutSeconds" IsTimeout)
      (agent : Admits m "userAgent" IsOptionalText) : IsFetch (.map m)

inductive IsIncludes : Value → Prop
  | mapping {m : Mapping} (only : HasOnly ["fetch"] m) (fetch : Admits m "fetch" IsFetch) :
      IsIncludes (.map m)

inductive IsLogging : Value → Prop
  | mapping {m : Mapping} (only : HasOnly ["level", "file"] m) (level : Admits m "level" IsText)
      (file : Admits m "file" IsOptionalText) : IsLogging (.map m)

/-- Other keys than those of the two sections may hold anything. -/
inductive IsConfiguration : Value → Prop
  | mapping {m : Mapping} (includes : Admits m "includes" IsIncludes)
      (logging : Admits m "logging" IsLogging) : IsConfiguration (.map m)

/-- What the place at a path asks of the value that is there, whatever the entries of that. -/
def Required : List String → Value → Prop
  | [], v => ∃ m, v = .map m
  | ["includes"], v => ∃ m, v = .map m ∧ HasOnly ["fetch"] m
  | ["includes", "fetch"], v => ∃ m, v = .map m ∧ HasOnly ["timeoutSeconds", "userAgent"] m
  | ["includes", "fetch", "timeoutSeconds"], v => IsTimeout v
  | ["includes", "fetch", "userAgent"], v => IsOptionalText v
  | ["logging"], v => ∃ m, v = .map m ∧ HasOnly ["level", "file"] m
  | ["logging", "level"], v => IsText v
  | ["logging", "file"], v => IsOptionalText v
  | _, _ => True

/-- There is a value at the path that is not as its place asks. -/
def Violates (v : Value) (path : List String) : Prop :=
  ∃ u, v.at? (path.map .text) = some u ∧ ¬Required path u

/-! ### What the schema asks -/

section

variable {properties : List (String × Schema)} {types : List String} {above : Option Value}

theorem Admits.congr {P Q : Value → Prop} {name : String} (h : ∀ v, P v ↔ Q v) :
    Admits m name P ↔ Admits m name Q :=
  forall_congr' fun v => imp_congr_right fun _ => h v

theorem own_open : own path v (.mk ["object"] properties true none) = [] ↔ ∃ m, v = .map m := by
  cases v <;> simp [own, typeViolations, hasType, boundViolations]

theorem own_closed : own path v (.mk ["object"] properties false none) = [] ↔
    ∃ m, v = .map m ∧ HasOnly (properties.map (·.1)) m := by
  cases v with
  | map m =>
      have hclosed : strangerViolations (properties.map (·.1)) path (.map m) = [] ↔ _ :=
        strangerViolations_map_eq_nil_iff
      simpa [own, typeViolations, hasType, boundViolations, HasOnly] using hclosed
  | _ => simp [own, typeViolations, hasType]

theorem own_leaf : own path v (.mk types [] true above) =
    (mk types [] true above).violations path v := by
  simp [own, violations, propertyViolations]

theorem text_iff : (mk ["string"] [] true none).violations path v = [] ↔ IsText v := by
  rw [violations_eq_nil_iff]
  constructor
  · rintro ⟨htype, -⟩
    cases v with
    | text s => exact .text s
    | _ => simp [typeViolations, hasType] at htype
  · rintro ⟨s⟩
    simp [typeViolations, hasType, propertyViolations, boundViolations]

theorem optionalText_iff :
    (mk ["string", "null"] [] true none).violations path v = [] ↔ IsOptionalText v := by
  rw [violations_eq_nil_iff]
  constructor
  · rintro ⟨htype, -⟩
    cases v with
    | null => exact .none
    | text s => exact .text s
    | _ => simp [typeViolations, hasType] at htype
  · rintro (_ | ⟨s⟩)
    all_goals simp [typeViolations, hasType, propertyViolations, boundViolations]

theorem isAtMostZero_eq_false_iff {d : Double} :
    d.isAtMostZero = false ↔ d = .nan ∨ d.isPositive = true := by
  cases d <;> simp [Double.isAtMostZero]

theorem timeout_iff : (mk ["number", "null"] [] true (some (.int 0))).violations path v = [] ↔
    IsTimeout v := by
  rw [violations_eq_nil_iff]
  constructor
  · rintro ⟨htype, -, -, hbound⟩
    cases v with
    | null => exact .none
    | int i =>
        refine .whole ?_
        simpa [boundViolations, isAtMost] using hbound
    | float d =>
        refine .double (isAtMostZero_eq_false_iff.mp ?_)
        simpa [boundViolations, isAtMost] using hbound
    | _ => simp [typeViolations, hasType] at htype
  · rintro (_ | ⟨habove⟩ | ⟨habove⟩)
    · simp [typeViolations, hasType, propertyViolations, boundViolations, isAtMost]
    · simpa [typeViolations, hasType, propertyViolations, boundViolations, isAtMost] using habove
    · rw [← isAtMostZero_eq_false_iff] at habove
      simp [typeViolations, hasType, propertyViolations, boundViolations, isAtMost, habove]

theorem violations_eq_nil_iff_own {isOpen : Bool} :
    (mk types properties isOpen above).violations path v = [] ↔
      own path v (.mk types properties isOpen above) = [] ∧
        propertyViolations path v properties = [] := by
  rw [violations, own]
  simp only [List.append_eq_nil_iff]
  grind

theorem open_iff : (mk ["object"] properties true none).violations path v = [] ↔ ∃ m, v = .map m ∧
    ∀ p ∈ properties, Admits m p.1 fun u => p.2.violations (path ++ [p.1]) u = [] := by
  rw [violations_eq_nil_iff_own, own_open]
  constructor
  · rintro ⟨⟨m, rfl⟩, hentries⟩
    exact ⟨m, rfl, propertyViolations_map_eq_nil_iff.mp hentries⟩
  · rintro ⟨m, rfl, hentries⟩
    exact ⟨⟨m, rfl⟩, propertyViolations_map_eq_nil_iff.mpr hentries⟩

theorem closed_iff : (mk ["object"] properties false none).violations path v = [] ↔
    ∃ m, v = .map m ∧ HasOnly (properties.map (·.1)) m ∧
      ∀ p ∈ properties, Admits m p.1 fun u => p.2.violations (path ++ [p.1]) u = [] := by
  rw [violations_eq_nil_iff_own, own_closed]
  constructor
  · rintro ⟨⟨m, rfl, honly⟩, hentries⟩
    exact ⟨m, rfl, honly, propertyViolations_map_eq_nil_iff.mp hentries⟩
  · rintro ⟨m, rfl, honly, hentries⟩
    exact ⟨⟨m, rfl, honly⟩, propertyViolations_map_eq_nil_iff.mpr hentries⟩

theorem fetch_iff :
    (mk ["object"] [("timeoutSeconds", mk ["number", "null"] [] true (some (.int 0))),
      ("userAgent", mk ["string", "null"] [] true none)] false none).violations path v = [] ↔
        IsFetch v := by
  rw [closed_iff]
  simp only [List.forall_mem_cons, Admits.congr fun _ => timeout_iff,
    Admits.congr fun _ => optionalText_iff]
  constructor
  · rintro ⟨m, rfl, honly, htimeout, hagent, -⟩
    exact .mapping honly htimeout hagent
  · rintro ⟨honly, htimeout, hagent⟩
    exact ⟨_, rfl, honly, htimeout, hagent, List.forall_mem_nil _⟩

theorem includes_iff :
    (mk ["object"] [("fetch", mk ["object"]
      [("timeoutSeconds", mk ["number", "null"] [] true (some (.int 0))),
        ("userAgent", mk ["string", "null"] [] true none)] false none)] false none).violations
          path v = [] ↔ IsIncludes v := by
  rw [closed_iff]
  simp only [List.forall_mem_cons, Admits.congr fun _ => fetch_iff]
  constructor
  · rintro ⟨m, rfl, honly, hfetch, -⟩
    exact .mapping honly hfetch
  · rintro ⟨honly, hfetch⟩
    exact ⟨_, rfl, honly, hfetch, List.forall_mem_nil _⟩

theorem logging_iff :
    (mk ["object"] [("level", mk ["string"] [] true none),
      ("file", mk ["string", "null"] [] true none)] false none).violations path v = [] ↔
        IsLogging v := by
  rw [closed_iff]
  simp only [List.forall_mem_cons, Admits.congr fun _ => text_iff,
    Admits.congr fun _ => optionalText_iff]
  constructor
  · rintro ⟨m, rfl, honly, hlevel, hfile, -⟩
    exact .mapping honly hlevel hfile
  · rintro ⟨honly, hlevel, hfile⟩
    exact ⟨_, rfl, honly, hlevel, hfile, List.forall_mem_nil _⟩

theorem configuration_iff : Bundle.schema.violations path v = [] ↔ IsConfiguration v := by
  rw [Bundle.schema, open_iff]
  simp only [List.forall_mem_cons, Admits.congr fun _ => includes_iff,
    Admits.congr fun _ => logging_iff]
  constructor
  · rintro ⟨m, rfl, hincludes, hlogging, -⟩
    exact .mapping hincludes hlogging
  · rintro ⟨hincludes, hlogging⟩
    exact ⟨_, rfl, hincludes, hlogging, List.forall_mem_nil _⟩

end

/-! ### The places of the schema -/

theorem nodes_schema : Bundle.schema.nodes.map (·.1) =
    [[], ["includes"], ["includes", "fetch"], ["includes", "fetch", "timeoutSeconds"],
      ["includes", "fetch", "userAgent"], ["logging"], ["logging", "level"],
      ["logging", "file"]] := rfl

theorem own_iff_required {names : List String} {n : Schema}
    (h : (names, n) ∈ Bundle.schema.nodes) : own path u n = [] ↔ Required names u := by
  simp only [Bundle.schema, nodes, nodesOf, List.map_cons, List.map_nil, List.append_nil,
    List.cons_append, List.nil_append, List.mem_cons, Prod.mk.injEq, List.not_mem_nil,
    or_false] at h
  rcases h with ⟨rfl, rfl⟩ | ⟨rfl, rfl⟩ | ⟨rfl, rfl⟩ | ⟨rfl, rfl⟩ | ⟨rfl, rfl⟩ | ⟨rfl, rfl⟩ |
    ⟨rfl, rfl⟩ | ⟨rfl, rfl⟩
  · exact own_open
  · exact own_closed
  · exact own_closed
  · rw [own_leaf]
    exact timeout_iff
  · rw [own_leaf]
    exact optionalText_iff
  · exact own_closed
  · rw [own_leaf]
    exact text_iff
  · rw [own_leaf]
    exact optionalText_iff

theorem exists_node {names : List String} (h : ¬Required names u) :
    ∃ n, (names, n) ∈ Bundle.schema.nodes := by
  have hnames : names ∈ Bundle.schema.nodes.map (·.1) := by
    rw [nodes_schema]
    unfold Required at h
    split at h
    all_goals first
      | exact absurd trivial h
      | simp
  obtain ⟨⟨_, n⟩, hn, rfl⟩ := List.mem_map.mp hnames
  exact ⟨n, hn⟩

theorem violates_iff : Violates v path ↔ ∃ w ∈ Bundle.schema.violations [] v, w.path = path := by
  constructor
  · rintro ⟨u, hu, hrequired⟩
    obtain ⟨n, hn⟩ := exists_node hrequired
    have hown : own path u n ≠ [] := mt (own_iff_required hn).mp hrequired
    obtain ⟨w, hw⟩ := List.exists_mem_of_ne_nil _ hown
    exact ⟨w, (mem_violations_iff _ _ _).mpr ⟨path, n, hn, u, hu, hw⟩, path_of_mem_own hw⟩
  · rintro ⟨w, hw, rfl⟩
    obtain ⟨names, n, hn, u, hu, hown⟩ := (mem_violations_iff _ _ _).mp hw
    rw [path_of_mem_own hown]
    refine ⟨u, hu, fun hrequired => ?_⟩
    rw [(own_iff_required hn).mpr hrequired] at hown
    cases hown

/-! ### The schema as a file -/

/-- The document that the schema's file holds. -/
def schemaDocument : Value :=
  let object (ps : List (String × Value)) : Value :=
    Bundle.mapping [("type", .text "object"), ("properties", Bundle.mapping ps),
      ("additionalProperties", .bool false)]
  let optional (type : String) : String × Value := ("type", .list [.text type, .text "null"])
  Bundle.mapping
    [("$schema", .text "https://json-schema.org/draft/2020-12/schema"),
     ("title", .text "archdsl configuration"),
     ("type", .text "object"),
     ("properties", Bundle.mapping
       [("includes", object
         [("fetch", object
           [("timeoutSeconds", Bundle.mapping [optional "number", ("exclusiveMinimum", .int 0)]),
            ("userAgent", Bundle.mapping [optional "string"])])]),
        ("logging", object
         [("level", Bundle.mapping [("type", .text "string")]),
          ("file", Bundle.mapping [optional "string"])])]),
     ("additionalProperties", .bool true)]

theorem toList_lines (ls : List String) :
    (Bundle.lines ls).toList = ls.flatMap fun l => l.toList ++ ['\n'] := by
  rw [Bundle.lines, String.toList_intercalate]
  induction ls with
  | nil => rfl
  | cons l ls ih =>
      cases ls with
      | nil => simp
      | cons l' ls => simpa using ih

theorem read_schemaText :
    Yaml.read (Text.unifyLineEnds Bundle.schemaText.toList) = .ok schemaDocument := by
  rw [Bundle.schemaText, toList_lines]
  exact toOption_eq_some_iff.mp (by decide +kernel)

theorem ofValue_schemaDocument : Schema.ofValue schemaDocument = Bundle.schema := rfl

/-- The file of the schema is where the library looks for it. -/
def Installed (w : World) : Prop :=
  w.files.contents (dataPath w "schemas" schemaName) = .ok (Text.Utf8.encode Bundle.schemaText)

theorem validate_eq (h : Installed w) (v : Value) :
    validate w schemaName v = Bundle.schema.check schemaName v := by
  have hname : schemaFile schemaName = schemaName := rfl
  have hcontains := contains_of_contents h
  have hread : read w.files (dataPath w "schemas" schemaName) = .ok schemaDocument :=
    read_ok_iff.mpr ⟨hcontains, _, _, h, Text.Utf8.decode_encode _, read_schemaText⟩
  have hload : ∃ m, loadSchema w schemaName = .ok m ∧ schemaDocument = .map m := by
    refine ⟨_, bind_ok_iff.mpr ⟨true, ?_, bind_ok_iff.mpr ⟨schemaDocument, ?_, rfl⟩⟩, rfl⟩
    · rw [hname]
      exact hcontains
    · rw [hname]
      exact hread
  obtain ⟨m, hm, hdocument⟩ := hload
  rw [validate, hm, ← ofValue_schemaDocument, hdocument]
  rfl

theorem isConfiguration_iff : IsConfiguration v ↔ ∀ path, ¬Violates v path := by
  have hvalid : Bundle.schema.violations [] v = [] ↔ IsConfiguration v := configuration_iff
  rw [← hvalid, List.eq_nil_iff_forall_not_mem]
  constructor
  · intro h path hpath
    obtain ⟨w, hw, -⟩ := violates_iff.mp hpath
    exact h w hw
  · intro h w hw
    exact h w.path (violates_iff.mpr ⟨w, hw, rfl⟩)

/-- The schema accepts the configurations and nothing else. What it refuses has something wrong in
the place that the failure names, and nothing wrong nearer to the root. Loading a configuration
checks it in the same way. -/
theorem validate_language (h : Installed w) (v : Value) :
    (validate w schemaName v = .ok () ↔ IsConfiguration v) ∧
    (IsConfiguration v ↔ ∀ path, ¬Violates v path) ∧
    (¬IsConfiguration v → ∃ path e, validate w schemaName v = .error e ∧ e.kind = .schema ∧
      e.context = Mapping.ofTexts [("schema", schemaName),
        ("path", if path = [] then "<root>" else "/".intercalate path)] ∧
      Violates v path ∧ ∀ path', Violates v path' → path.length ≤ path'.length) ∧
    ∀ m, check m = validate w schemaName (.map m) := by
  refine ⟨?_, isConfiguration_iff, fun hnot => ?_, fun m => (validate_eq h _).symm⟩
  · rw [validate_eq h, check_ok_iff, configuration_iff]
  · rw [validate_eq h, Schema.check]
    cases hworst : worst (Bundle.schema.violations [] v) with
    | none => exact absurd (configuration_iff.mp (worst_eq_none_iff.mp hworst)) hnot
    | some x =>
        obtain ⟨hmem, hle⟩ := worst_eq_some hworst
        refine ⟨x.path, _, rfl, rfl, rfl, violates_iff.mpr ⟨x, hmem, rfl⟩, fun path' hpath' => ?_⟩
        obtain ⟨y, hy, rfl⟩ := violates_iff.mp hpath'
        exact hle y hy

/-- No files but those of the library. -/
def bare : World where
  files := ⟨.directory [("D", Bundle.node)], [], [], []⟩
  bundle := ⟨.root, ["D"]⟩
  bindings := []
  remote := []
  homes := []
  clock := fun _ => ""

theorem installed_bare : Installed bare := by
  have hpath : dataPath bare "schemas" schemaName =
      ⟨.root, ["D", "schemas", "config", "config.schema.yaml"]⟩ := rfl
  rw [Installed, hpath]
  refine FileTree.contents_eq (l := ["D", "schemas", "config", "config.schema.yaml"]) ?_ rfl rfl
  refine FileTree.find_of_walkFor 4 (by decide) (by decide +kernel) ?_
  rw [bare, Bundle.node]
  -- No step of the walk looks into a file.
  generalize Text.Utf8.encode Bundle.includesText = includes
  generalize Text.Utf8.encode Bundle.loggingText = logging
  generalize Text.Utf8.encode Bundle.schemaText = schema
  rfl

/-- Two things are wrong: a limit of no seconds, and a setting by a name with a capital. -/
def twiceWrong : Value := Bundle.mapping
  [("includes", Bundle.mapping [("fetch", Bundle.mapping [("timeoutSeconds", .int 0)])]),
   ("logging", Bundle.mapping [("Level", .text "INFO")])]

theorem validate_language_twiceWrong : Installed bare ∧ ∃ e,
    validate bare schemaName twiceWrong = .error e ∧ e.kind = .schema ∧
      e.context = Mapping.ofTexts [("schema", schemaName), ("path", "logging")] := by
  refine ⟨installed_bare, ?_⟩
  obtain ⟨-, hiff, hrefused, -⟩ := validate_language installed_bare twiceWrong
  have hlogging : Violates twiceWrong ["logging"] :=
    ⟨Bundle.mapping [("Level", .text "INFO")], by rfl, by
      simp [Required, HasOnly, Bundle.mapping, Bundle.entries]⟩
  obtain ⟨path, e, he, hkind, hcontext, ⟨u, hu, hnot⟩, hnearest⟩ :=
    hrefused fun h => hiff.mp h _ hlogging
  refine ⟨e, he, hkind, ?_⟩
  have hshort : path.length ≤ 1 := hnearest _ hlogging
  obtain rfl : path = ["logging"] := by
    cases path with
    | nil => exact absurd ⟨_, (Option.some.inj hu).symm⟩ hnot
    | cons name rest =>
        have hrest : rest.length = 0 := Nat.le_zero.mp (Nat.le_of_succ_le_succ hshort)
        obtain rfl := List.length_eq_zero_iff.mp hrest
        by_cases hname : name = "includes"
        · subst hname
          cases hu
          refine absurd ⟨_, rfl, ?_⟩ hnot
          simp [HasOnly, Bundle.entries]
        · by_cases hname' : name = "logging"
          · rw [hname']
          · refine absurd ?_ hnot
            unfold Required
            split <;> simp_all
  exact hcontext

end Splice.Config
