import Splice.Config.Settings
import Splice.Proofs.Config.Layered
import Splice.Proofs.Config.Placement

namespace Splice.Config

open Outcome Override Results Value

variable {w : World} {root : Path} {m : Mapping} {base : Objects} {v : Value}
  {area name key text segment : String} {names rest path : List String}

/-! ### Where settings are read -/

/-- What is read at a path of names. -/
def found (m : Mapping) : List String → Except Fault Value
  | [] => .ok (.map m)
  | [name] => .ok (m.field name)
  | name :: names => do found (← section? m name) names

def settingPaths : List (List String) :=
  [["includes", "fetch", "timeoutSeconds"], ["includes", "fetch", "userAgent"],
   ["logging", "level"], ["logging", "file"]]

theorem fetching_eq (m : Mapping) : fetching m = do
    let timeout ← found m ["includes", "fetch", "timeoutSeconds"]
    let timeout ← match timeout with
      | .null => pure none
      | v => some <$> toDouble v
    let agent ← found m ["includes", "fetch", "userAgent"]
    return ⟨timeout, if agent.isEmpty then defaultAgent else agent.plain⟩ := by
  simp only [fetching, found, bind_assoc]
  cases section? m "includes" with
  | error e => rfl
  | ok s =>
      simp only [bind, Except.bind]
      cases section? s "fetch" <;> rfl

theorem logLevel_eq (m : Mapping) : logLevel m = do
    let level ← found m ["logging", "level"]
    return Text.uppered (if level.isEmpty then "WARNING" else level.plain) := by
  rw [logLevel]
  simp only [found]
  cases section? m "logging" <;> rfl

theorem logFile_eq (w : World) (root : Option Path) (m : Mapping) : logFile w root m = do
    let file ← found m ["logging", "file"]
    if file.isEmpty then return none
    return some ((givenRoot w root).append (← w.expandHome (.ofText file.plain))) := by
  rw [logFile]
  simp only [found]
  cases section? m "logging" <;> rfl

theorem found_of_at? (h : (Value.map m).at? (names.map .text) = some v) : found m names = .ok v := by
  induction names generalizing m with
  | nil => exact congrArg Except.ok (Option.some.inj h)
  | cons name names ih =>
      rw [List.map_cons, at?_map_cons] at h
      obtain ⟨u, hu, h⟩ := Option.bind_eq_some_iff.mp h
      cases names with
      | nil =>
          rw [List.map_nil, at?_nil] at h
          rw [found, Mapping.field, hu]
          exact congrArg Except.ok (Option.some.inj h)
      | cons next names =>
          have hmap : u.isMap = true := by
            rw [← Bool.not_eq_false]
            intro hmap
            rw [List.map_cons, at?_cons_of_not_map hmap] at h
            cases h
          obtain ⟨n, rfl⟩ := isMap_iff.mp hmap
          have hsection : section? m name = .ok n := by
            rw [section?, Mapping.field, hu]
            cases n <;> rfl
          rw [found, hsection]
          · exact ih h
          · simp

/-! ### The way of a setting -/

theorem follow?_map_cons_some (h : follow? (.map m) (segment :: rest) = some v) (hrest : rest ≠ []) :
    ∃ n, m.get? (.text (resolve m segment)) = some (.map n) ∧ follow? (.map n) rest = some v ∧
      inner m segment = n := by
  rw [follow?_map_cons] at h
  obtain ⟨u, hu, h⟩ := Option.bind_eq_some_iff.mp h
  cases rest with
  | nil => exact absurd rfl hrest
  | cons next rest =>
      cases u with
      | map n =>
          refine ⟨n, hu, h, inner_eq ?_⟩
          rw [hu]
          rfl
      | _ => cases h

/-- At each step along the path the schema allows only what it names, and of these names no other
than the one on the path answers to it. -/
def Guides : Schema → List String → Prop
  | _, [] => True
  | .mk _ properties isOpen _, name :: names => isOpen = false ∧
    ∀ p ∈ properties, Answers (Text.lowered name) p.1 → p.1 = name ∧ Guides p.2 names

/-- Where a schema guides the way and is satisfied, a path that leads somewhere is followed under the
very names. -/
theorem resolved_of_guides {s : Schema} (hguides : Guides s names)
    (hvalid : s.violations path (.map m) = [])
    (h : follow? (.map m) (names.map Text.lowered) = some v) :
    resolved m (names.map Text.lowered) = names := by
  induction names generalizing s path m with
  | nil => rfl
  | cons name names ih =>
      obtain ⟨types, properties, isOpen, above⟩ := s
      obtain ⟨rfl, hproperties⟩ := hguides
      have hpresent : (m.get? (.text (resolve m (Text.lowered name)))).isSome = true := by
        rw [List.map_cons, follow?_map_cons] at h
        obtain ⟨u, hu, -⟩ := Option.bind_eq_some_iff.mp h
        rw [hu]
        rfl
      -- The schema is closed, so the key that was taken is one of its names, and only one answers.
      obtain ⟨p, hp, hkey⟩ := List.mem_map.mp (Schema.mem_of_closed hvalid hpresent)
      obtain ⟨rfl, hbelow⟩ := hproperties p hp (hkey ▸ answers_resolve m _)
      rw [List.map_cons, resolved, ← hkey]
      by_cases hnames : names = []
      · rw [hnames]
        rfl
      · obtain ⟨n, hn, hfollow, hinner⟩ := follow?_map_cons_some h (by simpa using hnames)
        rw [← hkey] at hn
        rw [hinner, ih hbelow (Schema.property_satisfied hvalid hp hn) hfollow]

theorem guides_of_mem_settingPaths (h : area :: names ∈ settingPaths) :
    area ∈ ["includes", "logging"] ∧ ∃ types properties isOpen above s,
      Bundle.schema = .mk types properties isOpen above ∧ (area, s) ∈ properties ∧
        Guides s names := by
  have hfetch : Text.lowered "fetch" = "fetch" := rfl
  have htimeout : Text.lowered "timeoutSeconds" = "timeoutseconds" := rfl
  have hagent : Text.lowered "userAgent" = "useragent" := rfl
  have hlevel : Text.lowered "level" = "level" := rfl
  have hfile : Text.lowered "file" = "file" := rfl
  simp only [settingPaths, List.mem_cons, List.cons.injEq, List.not_mem_nil, or_false] at h
  rcases h with ⟨rfl, rfl⟩ | ⟨rfl, rfl⟩ | ⟨rfl, rfl⟩ | ⟨rfl, rfl⟩
  · exact ⟨by simp, _, _, _, _, _, rfl, List.mem_cons_self,
      by simp [Guides, Answers, hfetch, htimeout, hagent]⟩
  · exact ⟨by simp, _, _, _, _, _, rfl, List.mem_cons_self,
      by simp [Guides, Answers, hfetch, htimeout, hagent]⟩
  · exact ⟨by simp, _, _, _, _, _, rfl, List.mem_cons_of_mem _ List.mem_cons_self,
      by simp [Guides, Answers, hlevel, hfile]⟩
  · exact ⟨by simp, _, _, _, _, _, rfl, List.mem_cons_of_mem _ List.mem_cons_self,
      by simp [Guides, Answers, hlevel, hfile]⟩

/-- No file of the project has a key that differs from the area in case only. -/
def Unrivalled (w : World) (root : Path) (area : String) : Prop :=
  ∀ ps, files w.files (directory root) = .ok ps → ∀ p ∈ ps, ∀ n, mapping w.files p = .ok n →
    ∀ k, (n.get? (.text k)).isSome = true → Text.lowered k = area → k = area

theorem lowered_area (h : area ∈ ["includes", "logging"]) : Text.lowered area = area := by
  simp only [List.mem_cons, List.not_mem_nil, or_false] at h
  rcases h with rfl | rfl <;> rfl

theorem resolve_of_unrivalled (hbase : (layered w root).result = .ok base)
    (h : Unrivalled w root area) : resolve base.values area = area := by
  rcases resolve_eq_or_mem base.values area with hself | ⟨hlower, hpresent⟩
  · exact hself
  · rcases (key_layered (map_ok_iff.mpr ⟨base, hbase, rfl⟩)).mp hpresent with hbundled | ⟨ps, hps, p, hp, n, hn, hk⟩
    · exact (lowered_area hbundled).symm.trans hlower
    · exact h ps hps p hp n hn _ hk hlower

/-! ### One variable over all files -/

/-- Of all variables one is a setting, and its name spells the path in some case. -/
structure SetsOnly (w : World) (key text : String) (names : List String) : Prop where
  only : w.bindings.filter (fun v => (settingName? v.1).isSome) = [(key, text)]
  spells : ∃ name, settingName? key = some name ∧
    (segments name.toList).map Text.lower = names.map fun s => Text.lower s.toList

theorem load_assigned {validate : Bool} (hset : SetsOnly w key text names) (hnames : names ≠ [])
    (hload : (load w root validate).result = .ok m) :
    ∃ base v, (layered w root).result = .ok base ∧ Coerce.value text = .ok v ∧
      Written v (names.map Text.lowered) base.values m ∧ (validate = true → check m = .ok ()) := by
  obtain ⟨base, hbase, happlied, rfl, hcheck⟩ := result_load_ok_iff.mp hload
  obtain ⟨name, hname, hspells⟩ := hset.spells
  obtain ⟨-, p, v, hp, hv, hput⟩ := (result_apply_ok_iff hname).mp
    ((applyAll_single hset.only).mp ⟨happlied, rfl⟩)
  obtain rfl := path_eq hp hspells
  obtain ⟨changed, hplace⟩ := put_ok_iff.mp hput
  have hwritten := written_of_place (by simpa using hnames) hplace
  rw [Object.value_ofValue] at hwritten
  exact ⟨base, v, hbase, hv, hwritten, hcheck⟩

theorem load_oneFile {document : String} {label : Option Label} {n : Objects}
    (hdecode : Text.Utf8.decode (Text.Utf8.encode document) = .ok document.toList)
    (hn : Yaml.document oneFilePath.text (Text.unifyLineEnds document.toList) = .ok (.map label n))
    (hset : SetsOnly (oneFile document [(key, text)]) key text names)
    (happly : (apply (bundledDefaults.overlay n) (key, text)).result.map Entries.values = .ok m)
    (hvalid : Bundle.schema.violations [] (.map m) = []) :
    (load (oneFile document [(key, text)]) ⟨.root, []⟩ true).result = .ok m := by
  obtain ⟨o, ho, rfl⟩ := map_ok_iff.mp happly
  obtain ⟨-, -, hbase⟩ := objects_oneFile [(key, text)] hdecode hn
  obtain ⟨happlied, rfl⟩ := (applyAll_single hset.only).mpr ho
  exact result_load_ok_iff.mpr ⟨_, hbase, happlied, rfl, fun _ => Schema.check_ok_iff.mpr hvalid⟩

theorem document_timeout :
    Yaml.document oneFilePath.text
        (Text.unifyLineEnds "includes:\n  fetch:\n    timeoutSeconds: 30\n".toList) =
      .ok (.map (some ⟨oneFilePath.text, []⟩)
        [(.text "includes", .map (some ⟨oneFilePath.text, [0]⟩)
          [(.text "fetch", .map (some ⟨oneFilePath.text, [0, 0]⟩)
            [(.text "timeoutSeconds", .scalar (.int 30))])])]) :=
  toOption_eq_some_iff.mp (by decide +kernel)

theorem document_capitalLogging :
    Yaml.document oneFilePath.text (Text.unifyLineEnds "Logging:\n".toList) =
      .ok (.map (some ⟨oneFilePath.text, []⟩) [(.text "Logging", .scalar .null)]) :=
  toOption_eq_some_iff.mp (by decide +kernel)

def fiveSeconds : Mapping :=
  [(.text "includes", .map [(.text "fetch",
      .map [(.text "timeoutSeconds", .int 5), (.text "userAgent", .null)])]),
   (.text "logging", .map [(.text "level", .text "WARNING"), (.text "file", .null)])]

/-- The only setting among the variables is found at its place, whatever the files hold there, if no
file has a rival of the area that it lies in. -/
theorem load_override (hset : SetsOnly w key text (area :: names))
    (hpath : area :: names ∈ settingPaths) (hplain : Unrivalled w root area)
    (hload : (load w root true).result = .ok m) :
    ∃ v, Coerce.value text = .ok v ∧
      (Value.map m).at? ((area :: names).map .text) = some v ∧
      found m (area :: names) = .ok v := by
  obtain ⟨base, v, hbase, hv, hwritten, hcheck⟩ := load_assigned hset (by simp) hload
  obtain ⟨harea, types, properties, isOpen, above, s, hschema, hs, hguides⟩ :=
    guides_of_mem_settingPaths hpath
  have hvalid := Schema.check_ok_iff.mp (hcheck rfl)
  rw [hschema] at hvalid
  have hfollow := hwritten.follow?
  have hkeys : resolved m ((area :: names).map Text.lowered) = area :: names := by
    have harea : resolve m (Text.lowered area) = area := by
      have hhead := congrArg List.head? hwritten.resolved
      rw [List.map_cons, resolved, resolved, List.head?_cons, List.head?_cons, Option.some_inj] at hhead
      rw [hhead, lowered_area harea]
      exact resolve_of_unrivalled hbase hplain
    rw [List.map_cons, resolved, harea]
    by_cases hnames : names = []
    · rw [hnames]
      rfl
    · obtain ⟨n, hn, hbelow, hinner⟩ := follow?_map_cons_some hfollow (by simpa using hnames)
      rw [harea] at hn
      rw [hinner, resolved_of_guides hguides (Schema.property_satisfied hvalid hs hn) hbelow]
  have hat : (Value.map m).at? ((area :: names).map .text) = some v := by
    rw [follow?_eq_at?, hkeys] at hfollow
    exact hfollow
  exact ⟨v, hv, hat, found_of_at? hat⟩

/-- The project waits for half a minute, the variable for five seconds. -/
theorem load_override_timeout :
    (load (oneFile "includes:\n  fetch:\n    timeoutSeconds: 30\n"
        [("ARCHDSL_Includes__FETCH__timeoutseconds", "5")]) ⟨.root, []⟩ true).result =
      .ok fiveSeconds ∧
    found fiveSeconds ["includes", "fetch", "timeoutSeconds"] = .ok (.int 5) := by
  have hset : SetsOnly (oneFile "includes:\n  fetch:\n    timeoutSeconds: 30\n"
      [("ARCHDSL_Includes__FETCH__timeoutseconds", "5")])
      "ARCHDSL_Includes__FETCH__timeoutseconds" "5" ["includes", "fetch", "timeoutSeconds"] :=
    ⟨by decide +kernel, "Includes__FETCH__timeoutseconds", by decide +kernel, by decide +kernel⟩
  obtain ⟨hfiles, hmapping, -⟩ := objects_oneFile
    [("ARCHDSL_Includes__FETCH__timeoutseconds", "5")] rfl document_timeout
  have hplain : Unrivalled (oneFile "includes:\n  fetch:\n    timeoutSeconds: 30\n"
      [("ARCHDSL_Includes__FETCH__timeoutseconds", "5")]) ⟨.root, []⟩ "includes" := by
    intro ps hps p hp n hn k hk _
    cases hfiles.symm.trans hps
    obtain rfl := List.mem_singleton.mp hp
    cases hmapping.symm.trans hn
    rw [Entries.isSome_get?_text_iff, Entries.keys_values] at hk
    simpa using hk
  have hload := load_oneFile (m := fiveSeconds) rfl document_timeout hset
    (toOption_eq_some_iff.mp (by decide +kernel)) (by decide +kernel)
  obtain ⟨v, hv, -, hfound⟩ := load_override hset (by decide) hplain hload
  have hfive : Coerce.value "5" = .ok (.int 5) := rfl
  cases hfive.symm.trans hv
  exact ⟨hload, hfound⟩

def drawnAway : Mapping :=
  [(.text "includes", .map [(.text "fetch",
      .map [(.text "timeoutSeconds", .null), (.text "userAgent", .null)])]),
   (.text "logging", .map [(.text "level", .text "WARNING"), (.text "file", .null)]),
   (.text "Logging", .map [(.text "level", .text "DEBUG")])]

/-- A file that has `Logging` takes the setting for `logging` away. -/
theorem load_override_drawn_away :
    SetsOnly (oneFile "Logging:\n" [("ARCHDSL_LOGGING__LEVEL", "DEBUG")])
        "ARCHDSL_LOGGING__LEVEL" "DEBUG" ["logging", "level"] ∧
      Coerce.value "DEBUG" = .ok (.text "DEBUG") ∧
      ∃ m, (load (oneFile "Logging:\n" [("ARCHDSL_LOGGING__LEVEL", "DEBUG")])
          ⟨.root, []⟩ true).result = .ok m ∧
        (Value.map m).at? [.text "logging", .text "level"] = some (.text "WARNING") ∧
        found m ["logging", "level"] = .ok (.text "WARNING") := by
  have hset : SetsOnly (oneFile "Logging:\n" [("ARCHDSL_LOGGING__LEVEL", "DEBUG")])
      "ARCHDSL_LOGGING__LEVEL" "DEBUG" ["logging", "level"] :=
    ⟨by decide +kernel, "LOGGING__LEVEL", by decide +kernel, by decide +kernel⟩
  have hvalue : Coerce.value "DEBUG" = .ok (.text "DEBUG") :=
    toOption_eq_some_iff.mp (by decide +kernel)
  have happly : ((apply (bundledDefaults.overlay [(.text "Logging", .scalar .null)])
      ("ARCHDSL_LOGGING__LEVEL", "DEBUG")).result.map Entries.values).toOption = some drawnAway := by
    decide +kernel
  exact ⟨hset, hvalue, drawnAway, load_oneFile rfl document_capitalLogging hset
    (toOption_eq_some_iff.mp happly) (by decide +kernel), rfl, rfl⟩

end Splice.Config
