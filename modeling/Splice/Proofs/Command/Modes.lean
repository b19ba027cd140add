import Splice.Proofs.Command.Live
import Splice.Proofs.Command.Ready
import Splice.Proofs.Command.Switches
import Splice.Proofs.Reader.Provenance

namespace Splice.Command

open Outcome Results

variable {r : Report}

/-! ### What an expansion finds -/

/-- The file and the lines that an expansion prints, in whatever way. -/
def expansion (file : String) (s : Prepared) : Live (Path × List Line) := do
  let source ← (← s.files.look).resolve (.ofText file)
  let fetching ← (s.session.fetching (some s.root)).2
  let fetch := Remote.fetch s.session.world.remote fetching.options
  let find origin words := (Include.parseIn s.files.look fetch origin words).registered
  return (source, ← Reader.spliceFile s.files.look find source)

theorem run_expand (w : World) (o : Options) (file : String) (origins : Bool) :
    run w ⟨o, .expand file origins⟩ = ((prepare w o).andThen (expansion file)).exit (reportFor o)
      fun found => printLines (reportFor o) found.1 origins found.2 := by
  refine run_eq fun s => ?_
  simp only [perform, expansion, bind_assoc, pure_bind]

/-! ### Failures -/

theorem reports_settings (w : World) (o : Options) : Reports (settings w o).result := by
  refine .outcome FileTree.reports_resolve fun root => ?_
  refine .outcome (Config.reports_get _ _ _) fun entry => ?_
  have hlevel : Reports (logLevel o entry.config) := by
    unfold logLevel
    cases o.logLevel with
    | none => exact Config.reports_logLevel _
    | some level => exact .ok level
  have hfile : Reports (logFile w o root entry.config) := by
    unfold logFile
    cases o.logFile with
    | none => exact Config.reports_logFile _ _
    | some file => exact .ok _
  exact .outcome hlevel fun level => .outcome hfile fun file => .ok _

theorem reports_prepare (w : World) (o : Options) : Reports (prepare w o).result := by
  unfold prepare
  dsimp only
  split
  · rename_i e he
    exact (reports_settings w o).of_error he
  · rename_i s _
    split
    · rename_i e he
      have hconfigure := reports_configure Log.Setup.start w.files s.logLevel s.logFile
      rw [he] at hconfigure
      exact hconfigure.of_error rfl
    · exact .ok _

theorem reports_andThen {α : Type} {work : Prepared → Live α} {w : World} {o : Options}
    (h : ∀ s, Ready w s → Reports (work s []).result) :
    Reports ((prepare w o).andThen work).result := by
  intro e he
  rw [Stage.result_andThen] at he
  rcases bind_error_iff.mp he with he | ⟨s, hs, he⟩
  · exact reports_prepare w o e he
  · exact h s (ready_of_prepare hs) e he

theorem yields_fetching {w : World} {s : Prepared} (h : Ready w s) :
    Live.Yields (liftM (s.session.fetching (some s.root)).2) fun _ => True := by
  refine .outcome (Config.reports_fetchingOf _ _) ?_ fun _ _ => trivial
  rw [units, h.quiet]
  exact List.forall_mem_nil _

theorem yields_expansion (file : String) {w : World} {s : Prepared} (h : Ready w s) :
    Live.Yields (expansion file s) fun found => FromFiles found.2 := by
  refine (Live.Yields.look s.files).bind fun t _ => ?_
  refine (Live.Yields.except FileTree.reports_resolve).bind fun source _ => ?_
  refine (yields_fetching h).bind fun fetching _ => ?_
  refine (Reader.yields_spliceFile (fun p words => ?_) source).bind fun ls hls => .pure hls
  exact (Include.yields_parseIn (Remote.plain_fetch _ _) (Remote.reports_fetch _ _) p words).registered

/-- What a document tells of a failure. -/
def failureDocument (e : Fault) : Value :=
  .map [(.text "error", .text e.kind.name), (.text "message", .text e.message),
    (.text "context", .map e.context)]

theorem portable_failureDocument {e : Fault} (h : Json.Portable (.map e.context)) :
    Json.Portable (failureDocument e) := by
  refine Json.portable_fields [("error", .text e.kind.name), ("message", .text e.message),
    ("context", .map e.context)] ?_ ?_
  · show ["error", "message", "context"].Nodup
    decide
  · simp [Json.Portable.text, h]

theorem error_json (hr : r.json = true) {e : Fault} (hown : e.kind.isOwn = true) :
    r.error e.kind.name e "" = ⟨"", Json.write r.indent (failureDocument e) ++ "\n"⟩ := by
  simp only [Report.error, Report.errorDocument, hr, hown, if_true]
  rfl

theorem exit_reported_json {α : Type} (print : α → Printed) {f : Stage α} {e : Fault}
    (hr : r.json = true) (h : f.result = .error e) (hown : e.kind.isOwn = true)
    (hreport : e.Reportable) : ∃ document,
      f.exit r print =
        ⟨.ok 1, some e, ⟨"", f.sink.errors ++ (document ++ "\n")⟩, f.requests, f.sink.files⟩ ∧
      Json.readWithin none document.toList = .ok (failureDocument e) := by
  have hread := Json.readWithin_write r.indent (portable_failureDocument (hreport hown))
    (List.forall_mem_nil _)
  rw [List.append_nil] at hread
  refine ⟨_, ?_, hread⟩
  rw [Stage.exit_reported h hown, error_json hr hown]
  rfl

theorem error_bare (hr : r.json = false) (code : String) (e : Fault) :
    r.error code e "" = ⟨"", "Error: " ++ e.message ++ "\n"⟩ := by
  simp only [Report.error, hr]
  rfl

/-! ### Lines -/

/-- A line as a document tells of it. -/
structure Entry where
  origin : String
  number : Nat
  text : String

namespace Entry

def ofLine (l : Line) : Entry := ⟨originText l.origin, l.number, l.text⟩

def value (e : Entry) : Value :=
  .map [(.text "origin", .text e.origin), (.text "line", .int e.number), (.text "text", .text e.text)]

/-- The line that stands for an entry where there is no document. -/
def shown (origins : Bool) (e : Entry) : String :=
  (if origins then e.origin ++ ":" ++ toString e.number ++ ":" ++ e.text else e.text) ++ "\n"

end Entry

/-- What a document tells of an expansion. -/
def linesDocument (file : String) (es : List Entry) : Value :=
  .map [(.text "status", .text "success"), (.text "file", .text file),
    (.text "lines", .list (es.map Entry.value))]

theorem shown_ofLine (origins : Bool) (l : Line) :
    (Entry.ofLine l).shown origins = lineText origins l ++ "\n" := by
  cases origins <;> rfl

theorem foldl_line (ss : List String) (p : Printed) :
    (ss.map Printed.line).foldl (· ++ ·) p =
      ⟨(ss.map (· ++ "\n")).foldl (· ++ ·) p.output, p.errors⟩ := by
  induction ss generalizing p with
  | nil => rfl
  | cons s ss ih =>
      have hline : p ++ Printed.line s = ⟨p.output ++ (s ++ "\n"), p.errors⟩ := by
        show (⟨_, p.errors ++ ""⟩ : Printed) = _
        rw [String.append_empty]
        rfl
      rw [List.map_cons, List.foldl_cons, ih, hline]
      rfl

theorem printLines_bare (hr : r.json = false) (source : Path) (origins : Bool) (ls : List Line) :
    printLines r source origins ls =
      ⟨String.join ((ls.map Entry.ofLine).map (Entry.shown origins)), ""⟩ := by
  have htext : (fun l => r.text (lineText origins l)) = Printed.line ∘ lineText origins := by
    funext l
    simp only [Report.text, hr]
    rfl
  have hshown : (ls.map Entry.ofLine).map (Entry.shown origins) =
      (ls.map (lineText origins)).map (· ++ "\n") := by
    simp only [List.map_map, Function.comp_def, shown_ofLine]
  rw [printLines, hr, if_neg Bool.false_ne_true, htext, ← List.map_map, foldl_line, hshown]
  rfl

theorem printLines_json (hr : r.json = true) (source : Path) (origins : Bool) {ls : List Line}
    (hls : FromFiles ls) : printLines r source origins ls =
      ⟨Json.write r.indent (linesDocument source.text (ls.map Entry.ofLine)) ++ "\n", ""⟩ := by
  have hvalues : ls.map lineValue = (ls.map Entry.ofLine).map Entry.value := by
    rw [List.map_map]
    refine List.map_congr_left fun l hl => ?_
    obtain ⟨p, hp⟩ := hls l hl
    simp [lineValue, originValue, Entry.ofLine, Entry.value, originText, hp]
  rw [printLines, hr, if_pos rfl, hvalues, Report.success, hr, if_pos rfl]
  rfl

theorem portable_linesDocument (file : String) (es : List Entry) :
    Json.Portable (linesDocument file es) := by
  have hentry (e : Entry) : Json.Portable e.value := by
    refine Json.portable_fields
      [("origin", .text e.origin), ("line", .int e.number), ("text", .text e.text)] ?_ ?_
    · show ["origin", "line", "text"].Nodup
      decide
    · simp [Json.Portable.text, Json.Portable.int]
  refine Json.portable_fields [("status", .text "success"), ("file", .text file),
    ("lines", .list (es.map Entry.value))] ?_ ?_
  · show ["status", "file", "lines"].Nodup
    decide
  · simp [Json.Portable.text, Json.portable_list_iff, hentry]

theorem resolve_of_expansion {file : String} {s : Prepared} {found : Path × List Line}
    (h : (expansion file s []).result = .ok found) :
    (s.files []).resolve (.ofText file) = .ok found.1 := by
  obtain ⟨source, hsource, h⟩ := result_bind_ok_iff.mp h
  obtain ⟨fetching, -, h⟩ := result_bind_ok_iff.mp h
  obtain ⟨ls, -, h⟩ := result_bind_ok_iff.mp h
  cases h
  exact hsource

/-! ### Both ways to report -/

/-- A run that prints bare text and one that prints documents, of the same expansion in the same
world. -/
structure Agree (w : World) (o : Options) (file : String) (origins : Bool)
    (bare documented : Exit) : Prop where
  ends : bare.code = .ok 0 ∨ bare.code = .ok 1 ∨ ∃ e, bare.code = .error e
  code_eq : documented.code = bare.code
  reported_eq : documented.reported = bare.reported
  requests_eq : documented.requests = bare.requests
  files_eq : documented.files = bare.files
  success : bare.code = .ok 0 → ∃ s source ls, (prepare w o).result = .ok s ∧
    (s.files []).resolve (.ofText file) = .ok source ∧
    (expansion file s []).result = .ok (source, ls) ∧
    Json.readWithin none documented.printed.output.toList =
      .ok (linesDocument source.text (ls.map Entry.ofLine)) ∧
    bare.printed.output = String.join ((ls.map Entry.ofLine).map (Entry.shown origins)) ∧
    documented.printed.errors = bare.printed.errors
  failure : bare.code = .ok 1 → bare.printed.output = "" ∧ documented.printed.output = "" ∧
    ∃ e logged document, bare.reported = some e ∧
      bare.printed.errors = logged ++ ("Error: " ++ e.message ++ "\n") ∧
      documented.printed.errors = logged ++ (document ++ "\n") ∧
      Json.readWithin none document.toList = .ok (failureDocument e)
  escape : ∀ e, bare.code = .error e → bare.printed.output = "" ∧
    documented.printed = bare.printed

theorem append_output (logged : String) (p : Printed) :
    Printed.output (⟨"", logged⟩ ++ p) = p.output :=
  String.empty_append

theorem append_errors (logged output : String) :
    Printed.errors (⟨"", logged⟩ ++ ⟨output, ""⟩) = logged :=
  String.append_empty

theorem readWithin_output {v : Value} (h : Json.Portable v) (logged : String) (indent : Option Nat) :
    Json.readWithin none
      (Printed.output (⟨"", logged⟩ ++ ⟨Json.write indent v ++ "\n", ""⟩)).toList = .ok v := by
  rw [append_output, String.toList_append]
  exact Json.readWithin_write indent h (by simp [Json.isSpace])

theorem agree (w : World) {o : Options} (ho : o.json = false) (file : String) (origins : Bool) :
    Agree w o file origins (run w ⟨o, .expand file origins⟩)
      (run w ⟨{ o with json := true }, .expand file origins⟩) := by
  -- What the report is does not matter before it is made.
  have hsame : prepare w { o with json := true } = prepare w o := rfl
  have hbare : (reportFor o).json = false := ho
  have hjson : (reportFor { o with json := true }).json = true := rfl
  rw [run_expand, run_expand, hsame]
  cases hresult : ((prepare w o).andThen (expansion file)).result with
  | ok found =>
      obtain ⟨source, ls⟩ := found
      obtain ⟨s, hs, hexpansion⟩ := bind_ok_iff.mp ((Stage.result_andThen _ _).symm.trans hresult)
      have hls := (yields_expansion file (ready_of_prepare hs)).result [] _ hexpansion
      have hsource := resolve_of_expansion hexpansion
      rw [Stage.exit_ok hresult, Stage.exit_ok hresult, printLines_bare hbare,
        printLines_json hjson _ _ hls]
      refine ⟨.inl rfl, rfl, rfl, rfl, rfl, fun _ => ⟨s, source, ls, hs, hsource, hexpansion, ?_, ?_, ?_⟩,
        by rintro ⟨⟩, by rintro _ ⟨⟩⟩
      · exact readWithin_output (portable_linesDocument _ _) _ _
      · exact append_output _ _
      · rw [append_errors, append_errors]
  | error e =>
      cases hown : e.kind.isOwn with
      | false =>
          rw [Stage.exit_escaped hresult hown, Stage.exit_escaped hresult hown]
          exact ⟨.inr (.inr ⟨e, rfl⟩), rfl, rfl, rfl, rfl, by rintro ⟨⟩, by rintro ⟨⟩,
            fun _ _ => ⟨rfl, rfl⟩⟩
      | true =>
          have hreports : Reports ((prepare w o).andThen (expansion file)).result :=
            reports_andThen fun s hs => (yields_expansion file hs).reports []
          obtain ⟨document, hexit, hread⟩ := exit_reported_json
            (fun found => printLines (reportFor { o with json := true }) found.1 origins found.2)
            hjson hresult hown (hreports e hresult)
          rw [Stage.exit_reported hresult hown, error_bare hbare, hexit]
          exact ⟨.inr (.inl rfl), rfl, rfl, rfl, rfl, by rintro ⟨⟩,
            fun _ => ⟨rfl, rfl, e, _, document, rfl, rfl, rfl, hread⟩, by rintro _ ⟨⟩⟩

/-- Both ways to report an expansion tell of the same lines or of the same failure, and where it
fails no line is printed. -/
theorem expand_modes {rest : List String} {i : Invocation} (h : read ("expand" :: rest) = .ok i)
    (hbare : i.options.json = false) (w : World) :
    ∃ file origins, i.command = .expand file origins ∧
      read ("expand" :: "--json" :: rest) =
        .ok { i with options := { i.options with json := true } } ∧
      ∀ arguments, read arguments = .ok { i with options := { i.options with json := true } } →
        Agree w i.options file origins (execute w ("expand" :: rest)) (execute w arguments) := by
  obtain ⟨⟨file, origins, hcommand⟩, hjson⟩ := read_json h
  refine ⟨file, origins, hcommand, hjson, fun arguments harguments => ?_⟩
  obtain ⟨o, c⟩ := i
  obtain rfl : c = .expand file origins := hcommand
  rw [execute, execute, h, harguments]
  exact agree w hbare file origins

/-- The world of a file that includes a file and a document. -/
def twoFilesWorld : World := ⟨Reader.twoFiles, ⟨.root, ["D"]⟩, [], Reader.documents, [], fun _ => ""⟩

theorem expand_modes_m :
    read ["expand", "m", "--origins"] = .ok ⟨⟨false, none, none, none⟩, .expand "m" true⟩ ∧
    read ["expand", "--json", "m", "--origins"] =
      .ok ⟨⟨true, none, none, none⟩, .expand "m" true⟩ ∧
    Agree twoFilesWorld ⟨false, none, none, none⟩ "m" true
      (execute twoFilesWorld ["expand", "m", "--origins"])
      (execute twoFilesWorld ["expand", "--json", "m", "--origins"]) := by
  have hread : read ["expand", "m", "--origins"] =
      .ok ⟨⟨false, none, none, none⟩, .expand "m" true⟩ := by rfl
  obtain ⟨file, origins, hcommand, hjson, hagree⟩ := expand_modes hread rfl twoFilesWorld
  cases hcommand
  exact ⟨hread, hjson, hagree _ hjson⟩

end Splice.Command
