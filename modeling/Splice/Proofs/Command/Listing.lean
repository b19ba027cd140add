import Mathlib.Algebra.GroupWithZero.Nat
import Splice.Proofs.Command.Modes
import Splice.Proofs.Reader.PassThrough
import Splice.Proofs.Words.Enclosed

namespace Splice.Include

/-- A target that is a file is all that is registered. -/
theorem parseIn_file {files : Files} {fetch : Remote.Fetcher} {made : List Log.Record}
    {parent : Path} {keyword source : String} {lines : List String}
    (hlocal : isRemote source = false)
    (hcontains : (files made).contains (target parent source) = .ok true)
    (hfile : (files made).isDirectory (target parent source) = .ok false)
    (hlines : readLines (files made) (target parent source) = .ok lines) :
    parseIn files.look fetch (some parent) ⟨[keyword, source]⟩ made =
      register (target parent source) lines := by
  obtain ⟨n, hn⟩ := Nat.exists_eq_add_of_lt (depthBound_pos (files made))
  show resolveIn files.look fetch (some parent) source made = _
  rw [resolveIn, if_neg (by simp [hlocal]), Live.look_bind, Live.lift_bind_ok hcontains, if_pos rfl, hn, searchWithin, Live.look_bind,
    Live.lift_bind_ok hfile, if_neg Bool.false_ne_true, Live.lift_bind_ok hlines]
  rfl

end Splice.Include

namespace Splice.Reader

open Outcome

/-- The lines of a unit as they stand in it. -/
def ownLines (u : SourceUnit) : List Line := numbered u.file 1 u.lines

variable {files : Files} {find : Option Path → Words → Live (List SourceUnit)}
  {expand : SourceUnit → Live (List Line)} {us : List SourceUnit}

theorem spliceLines_own (origin : Option Path) (number : Nat) {lines : List String}
    (h : ∀ text ∈ lines, Directive.ofLine? text = .ok none) :
    spliceLines find expand origin number lines = pure (numbered origin number lines) := by
  induction lines generalizing number with
  | nil => rfl
  | cons text rest ih =>
      obtain ⟨htext, hrest⟩ := List.forall_mem_cons.mp h
      rw [spliceLines, spliceLine, Live.lift_bind_ok htext, ih (number + 1) hrest]
      simp only [pure_bind]
      rfl

theorem expandUnits_own (h : ∀ u ∈ us, expand u = pure (ownLines u)) :
    expandUnits expand us = pure (us.flatMap ownLines) := by
  induction us with
  | nil => rfl
  | cons u us ih =>
      obtain ⟨hu, hus⟩ := List.forall_mem_cons.mp h
      rw [expandUnits, hu, ih hus, pure_bind, pure_bind, List.flatMap_cons]

/-- A file that does nothing but include a target expands to the lines of what is found. -/
theorem spliceFile_write {source : Path} {target : String} {made : List Log.Record}
    (hlines : Include.readLines (files made) source = .ok [Directive.write target])
    (hown : ∀ us, (find (some source) ⟨["!include", target]⟩ made).result = .ok us →
      ∀ u ∈ us, ∀ text ∈ u.lines, Directive.ofLine? text = .ok none) :
    spliceFile files.look find source made =
      (do return (← find (some source) ⟨["!include", target]⟩).flatMap ownLines : Live _) made := by
  have hline : spliceWithin find deepest ⟨some source, [Directive.write target]⟩ =
      find (some source) ⟨["!include", target]⟩ >>= expandUnits (spliceWithin find 899) := by
    show spliceLines find (spliceWithin find 899) (some source) 1 [Directive.write target] = _
    rw [spliceLines, spliceLine, Live.lift_bind_ok (Directive.ofLine?_write target)]
    simp only [spliceLines, pure_bind, List.append_nil, bind_pure]
  have hunit (u : SourceUnit) (hu : ∀ text ∈ u.lines, Directive.ofLine? text = .ok none) :
      spliceWithin find 899 u = pure (ownLines u) := spliceLines_own u.file 1 hu
  rw [spliceFile, Live.look_bind, Live.lift_bind_ok hlines, hline, Live.bind_apply, Live.bind_apply]
  refine bind_congr_ok fun us hus => ?_
  rw [expandUnits_own fun u hu => hunit u (hown us hus u hu)]

end Splice.Reader

namespace Splice.Command

open Outcome Results

/-! ### What a listing finds -/

/-- The units that a target leads to from a file. -/
def listing (file target : String) (s : Prepared) : Live (List SourceUnit) := do
  let parent ← (← s.files.look).resolve (.ofText file)
  let fetching ← (s.session.fetching (some s.root)).2
  let fetch := Remote.fetch s.session.world.remote fetching.options
  (Include.parseIn s.files.look fetch (some parent) ⟨["!include", target]⟩).registered

theorem run_includes (w : World) (o : Options) (file target : String) :
    run w ⟨o, .includes file (some target)⟩ = ((prepare w o).andThen (listing file target)).exit
      (reportFor o) (printUnits (reportFor o) target) := by
  refine run_eq fun s => ?_
  simp only [perform, listing, bind_assoc]

theorem expansion_eq_listing {file target ending : String} {w : World} {s : Prepared}
    (hs : Ready w s) {source : Path} (hsource : (s.files []).resolve (.ofText file) = .ok source)
    (hread : (s.files []).read source = .ok (Directive.write target ++ ending))
    (htarget : ∀ c ∈ target.toList, c ≠ '\r' ∧ c ≠ '\n')
    (hending : ending ∈ ["", "\n"])
    (hown : ∀ us, (listing file target s []).result = .ok us →
      ∀ u ∈ us, ∀ line ∈ u.lines, Directive.ofLine? line = .ok none) :
    expansion file s [] =
      (do return (source, (← listing file target s).flatMap Reader.ownLines) : Live _) [] := by
  have hlines : Include.readLines (s.files []) source = .ok [Directive.write target] := by
    rw [Include.readLines, hread]
    exact congrArg Except.ok (Directive.linesOfFile_write htarget hending)
  have hquiet : ((liftM (s.session.fetching (some s.root)).2 : Live _) []).records = [] :=
    congrArg (List.filterMap _) hs.quiet
  unfold listing at hown ⊢
  unfold expansion
  simp only [bind_assoc, Live.look_bind, Live.lift_bind_ok hsource] at hown ⊢
  rw [Live.bind_quiet hquiet] at hown ⊢
  rw [Live.bind_quiet hquiet]
  refine bind_congr_ok fun fetching hfetching => ?_
  have hown' := fun us hus => hown us (result_bind_ok_iff.mpr ⟨fetching, hfetching, hus⟩)
  rw [Live.bind_return, Reader.spliceFile_write hlines hown', ← Live.bind_return, bind_assoc]
  simp only [pure_bind]

theorem yields_listing (file target : String) {w : World} {s : Prepared} (h : Ready w s) :
    Live.Yields (listing file target s) OfFiles := by
  refine (Live.Yields.look s.files).bind fun t _ => ?_
  refine (Live.Yields.except FileTree.reports_resolve).bind fun parent _ => ?_
  refine (yields_fetching h).bind fun fetching _ => ?_
  exact (Include.yields_parseIn (Remote.plain_fetch _ _) (Remote.reports_fetch _ _) parent
    _).registered

/-! ### Documents -/

/-- A unit as a document tells of it. -/
structure Listed where
  file : String
  lines : Nat

namespace Listed

def ofUnit (u : SourceUnit) : Listed := ⟨originText u.file, u.lines.length⟩

def value (f : Listed) : Value := .map [(.text "file", .text f.file), (.text "lines", .int f.lines)]

/-- The origins and the numbers of its lines. -/
def places (f : Listed) : List (String × Nat) := (List.range' 1 f.lines).map fun n => (f.file, n)

end Listed

def Entry.place (e : Entry) : String × Nat := (e.origin, e.number)

/-- What a document tells of a listing. -/
def filesDocument (target : String) (fs : List Listed) : Value :=
  .map [(.text "status", .text "success"), (.text "target", .text target),
    (.text "files", .list (fs.map Listed.value))]

theorem printUnits_json {r : Report} (hr : r.json = true) (target : String) {us : List SourceUnit}
    (hus : OfFiles us) : printUnits r target us =
      ⟨Json.write r.indent (filesDocument target (us.map Listed.ofUnit)) ++ "\n", ""⟩ := by
  have hvalues : us.map unitValue = (us.map Listed.ofUnit).map Listed.value := by
    rw [List.map_map]
    refine List.map_congr_left fun u hu => ?_
    obtain ⟨p, hp⟩ := hus u hu
    simp [unitValue, originValue, Listed.ofUnit, Listed.value, originText, hp]
  rw [printUnits, hvalues, Report.success, hr, if_pos rfl]
  rfl

theorem portable_filesDocument (target : String) (fs : List Listed) :
    Json.Portable (filesDocument target fs) := by
  have hlisted (f : Listed) : Json.Portable f.value := by
    refine Json.portable_fields [("file", .text f.file), ("lines", .int f.lines)] ?_ ?_
    · show ["file", "lines"].Nodup
      decide
    · simp [Json.Portable.text, Json.Portable.int]
  refine Json.portable_fields [("status", .text "success"), ("target", .text target),
    ("files", .list (fs.map Listed.value))] ?_ ?_
  · show ["status", "target", "files"].Nodup
    decide
  · simp [Json.Portable.text, Json.portable_list_iff, hlisted]

theorem places_ownLines (us : List SourceUnit) :
    ((us.flatMap Reader.ownLines).map Entry.ofLine).map Entry.place =
      (us.map Listed.ofUnit).flatMap Listed.places := by
  have hunit (u : SourceUnit) :
      ((Reader.ownLines u).map Entry.ofLine).map Entry.place = (Listed.ofUnit u).places := by
    rw [Listed.ofUnit, Listed.places, ← List.zipIdx_map_snd 1 u.lines, Reader.ownLines,
      Reader.numbered, List.map_map, List.map_map, List.map_map]
    rfl
  rw [List.map_flatMap, List.map_flatMap, List.flatMap_map]
  exact congrArg (us.flatMap ·) (funext hunit)

theorem length_flatMap_places (fs : List Listed) :
    (fs.flatMap Listed.places).length = (fs.map Listed.lines).sum := by
  simp only [List.length_flatMap, Listed.places, List.length_map, List.length_range']

/-! ### Both commands -/

/-- A run that expands a file and one that lists a target, both reporting in documents: the lines
of the first are those that the second counts. -/
structure SameFiles (target : String) (expanded listed : Exit) : Prop where
  ends : expanded.code = .ok 0 ∨ expanded.code = .ok 1 ∨ ∃ e, expanded.code = .error e
  code_eq : listed.code = expanded.code
  reported_eq : listed.reported = expanded.reported
  requests_eq : listed.requests = expanded.requests
  files_eq : listed.files = expanded.files
  errors_eq : listed.printed.errors = expanded.printed.errors
  success : expanded.code = .ok 0 → ∃ source es fs,
    Json.readWithin none expanded.printed.output.toList = .ok (linesDocument source es) ∧
    Json.readWithin none listed.printed.output.toList = .ok (filesDocument target fs) ∧
    es.map Entry.place = fs.flatMap Listed.places ∧ es.length = (fs.map Listed.lines).sum
  failure : expanded.code = .ok 1 → expanded.printed.output = "" ∧ listed.printed.output = "" ∧
    ∃ e logged document, expanded.reported = some e ∧
      expanded.printed.errors = logged ++ (document ++ "\n") ∧
      Json.readWithin none document.toList = .ok (failureDocument e)

theorem same_files {p : Stage (List SourceUnit)} {r : Report} (hr : r.json = true)
    (hp : Reports p.result) (hfiles : ∀ us, p.result = .ok us → OfFiles us)
    (source : Path) (origins : Bool) (target : String) :
    SameFiles target
      (p.exit r fun us => printLines r source origins (us.flatMap Reader.ownLines))
      (p.exit r (printUnits r target)) := by
  cases hresult : p.result with
  | ok us =>
      have hus := hfiles us hresult
      have hls : FromFiles (us.flatMap Reader.ownLines) := by
        intro l hl
        obtain ⟨u, hu, hl⟩ := List.mem_flatMap.mp hl
        obtain ⟨_, -, rfl⟩ := List.mem_map.mp hl
        exact hus u hu
      rw [Stage.exit_ok hresult, Stage.exit_ok hresult, printLines_json hr _ _ hls,
        printUnits_json hr _ hus]
      refine ⟨.inl rfl, rfl, rfl, rfl, rfl, ?_, fun _ => ⟨source.text, _, _, ?_, ?_,
        places_ownLines us, ?_⟩, by rintro ⟨⟩⟩
      · rw [append_errors, append_errors]
      · exact readWithin_output (portable_linesDocument _ _) _ _
      · exact readWithin_output (portable_filesDocument _ _) _ _
      · have hlength := congrArg List.length (places_ownLines us)
        rwa [List.length_map, length_flatMap_places] at hlength
  | error e =>
      cases hown : e.kind.isOwn with
      | false =>
          rw [Stage.exit_escaped hresult hown, Stage.exit_escaped hresult hown]
          exact ⟨.inr (.inr ⟨e, rfl⟩), rfl, rfl, rfl, rfl, rfl, by rintro ⟨⟩, by rintro ⟨⟩⟩
      | true =>
          obtain ⟨document, hexit, hread⟩ := exit_reported_json
            (fun us => printLines r source origins (us.flatMap Reader.ownLines)) hr hresult hown
            (hp e hresult)
          rw [Stage.exit_reported hresult hown] at hexit ⊢
          rw [Stage.exit_reported hresult hown, hexit]
          exact ⟨.inr (.inl rfl), rfl, rfl, rfl, rfl, rfl, by rintro ⟨⟩,
            fun _ => ⟨rfl, rfl, e, _, document, rfl, rfl, hread⟩⟩

/-- Listing a target for a file tells what an expansion of the file finds, if the file does nothing
but include the target. -/
theorem includes_as_expand {arguments arguments' : List String} {o : Options}
    {file target ending : String} {origins : Bool} {source : Path}
    (hexpand : read arguments = .ok ⟨o, .expand file origins⟩)
    (hincludes : read arguments' = .ok ⟨o, .includes file (some target)⟩) (hjson : o.json = true)
    (w : World) (hsource : w.files.resolve (.ofText file) = .ok source)
    (hread : w.files.read source = .ok (Directive.write target ++ ending))
    (htarget : ∀ c ∈ target.toList, c ≠ '\r' ∧ c ≠ '\n')
    (hending : ending ∈ ["", "\n"])
    (hown : ∀ s us, (prepare w o).result = .ok s → (listing file target s []).result = .ok us →
      ∀ u ∈ us, ∀ line ∈ u.lines, Directive.ofLine? line = .ok none) :
    SameFiles target (execute w arguments) (execute w arguments') := by
  have hsame : (prepare w o).andThen (expansion file) = (prepare w o).andThen fun s => do
      return (source, (← listing file target s).flatMap Reader.ownLines) := by
    refine Stage.andThen_congr fun s hs => ?_
    -- Logging may have made files, but the file is found and read as before.
    have hready := ready_of_prepare hs
    obtain ⟨l, -, -, hl, -⟩ := FileTree.read_ok hread
    exact expansion_eq_listing hready (hready.grown.resolve_ok hsource hl)
      (hready.grown.read_ok hread) htarget hending fun us hus => hown s us hs hus
  have hreports : Reports ((prepare w o).andThen (listing file target)).result :=
    reports_andThen fun s hs => (yields_listing file target hs).reports []
  rw [execute, execute, hexpand, hincludes]
  show SameFiles target (run w _) (run w _)
  rw [run_expand, run_includes, hsame, Stage.exit_return]
  refine same_files hjson hreports (fun us hus => ?_) source origins target
  obtain ⟨s, hs, hlisting⟩ := bind_ok_iff.mp ((Stage.result_andThen _ _).symm.trans hus)
  exact (yields_listing file target (ready_of_prepare hs)).result [] us hlisting

/-- A file that only includes another one, in whose name there is a quote. -/
def quoteTree : FileTree where
  root := .directory [
    ("m", .file [33, 105, 110, 99, 108, 117, 100, 101, 32, 39, 105, 116, 39, 34, 39, 34, 39, 115, 39,
      10]),
    ("it's", .file [121, 10])]
  current := []
  unlistable := []
  unreadable := []

def quoteWorld : World := ⟨quoteTree, ⟨.root, ["D"]⟩, [], [], [], fun _ => ""⟩

theorem find_quoteTree (name : String) (hname : name = "m" ∨ name = "it's") :
    quoteTree.find ⟨.root, [name]⟩ = .ok [name] := by
  rcases hname with rfl | rfl
  all_goals
    exact FileTree.find_of_walkFor 1 (by decide) (by decide) rfl

theorem resolve_quoteTree : quoteTree.resolve (.ofText "m") = .ok ⟨.root, ["m"]⟩ := by
  have hcanonical : quoteTree.canonical (.ofText "m") = .ok ["m"] := by decide +kernel
  exact FileTree.resolve_eq hcanonical (find_quoteTree "m" (.inl rfl))

theorem listing_quoteTree {s : Prepared} (hs : Ready quoteWorld s) {us : List SourceUnit}
    (h : (listing "m" "it's" s []).result = .ok us) : us = [⟨some ⟨.root, ["it's"]⟩, ["y"]⟩] := by
  have hfind := find_quoteTree "it's" (.inr rfl)
  have hnode := hs.grown.kept (show quoteTree.node? ["it's"] = some (.file [121, 10]) from rfl)
    (by rintro _ ⟨⟩)
  have htarget : Include.target ⟨.root, ["m"]⟩ "it's" = ⟨.root, ["it's"]⟩ := by decide
  have hcontains : (s.files []).contains (Include.target ⟨.root, ["m"]⟩ "it's") = .ok true := by
    rw [htarget]
    exact FileTree.leadsTo_eq (hs.grown.find_ok hfind) hnode _
  have hfile : (s.files []).isDirectory (Include.target ⟨.root, ["m"]⟩ "it's") = .ok false := by
    rw [htarget]
    exact FileTree.leadsTo_eq (hs.grown.find_ok hfind) hnode _
  have hlines : Include.readLines (s.files []) (Include.target ⟨.root, ["m"]⟩ "it's") = .ok ["y"] := by
    rw [htarget, Include.readLines, hs.grown.read_ok (FileTree.read_eq hfind rfl rfl rfl)]
    rfl
  have hresolve := hs.grown.resolve_ok resolve_quoteTree (find_quoteTree "m" (.inl rfl))
  have hquiet : ((liftM (s.session.fetching (some s.root)).2 : Live _) []).records = [] :=
    congrArg (List.filterMap _) hs.quiet
  rw [listing, Live.look_bind, Live.lift_bind_ok hresolve, Live.bind_quiet hquiet] at h
  obtain ⟨fetching, -, h⟩ := result_bind_ok_iff.mp h
  rw [Live.registered_apply, Include.parseIn_file (by decide) hcontains hfile hlines] at h
  exact (Except.ok.inj h).symm

theorem includes_as_expand_quote :
    read ["expand", "--json", "m"] = .ok ⟨⟨true, none, none, none⟩, .expand "m" false⟩ ∧
    read ["includes", "--json", "m", "it's"] =
      .ok ⟨⟨true, none, none, none⟩, .includes "m" (some "it's")⟩ ∧
    SameFiles "it's" (execute quoteWorld ["expand", "--json", "m"])
      (execute quoteWorld ["includes", "--json", "m", "it's"]) := by
  have hexpand : read ["expand", "--json", "m"] =
      .ok ⟨⟨true, none, none, none⟩, .expand "m" false⟩ := by rfl
  have hincludes : read ["includes", "--json", "m", "it's"] =
      .ok ⟨⟨true, none, none, none⟩, .includes "m" (some "it's")⟩ := by rfl
  have hread : quoteTree.read ⟨.root, ["m"]⟩ = .ok (Directive.write "it's" ++ "\n") :=
    (FileTree.read_eq (find_quoteTree "m" (.inl rfl)) rfl rfl rfl).trans (by decide)
  refine ⟨hexpand, hincludes, includes_as_expand hexpand hincludes rfl quoteWorld
    resolve_quoteTree hread (by simp) (by decide) fun s us hs hus => ?_⟩
  rw [listing_quoteTree (ready_of_prepare hs) hus]
  simp only [List.mem_singleton, forall_eq]
  rfl

end Splice.Command
