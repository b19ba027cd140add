import Splice.Proofs.Reader.Termination

namespace Splice.Reader

open Outcome Relation

variable {resolve : Resolver} {t : FileTree} {fetch : Remote.Fetcher}

/-- A full expansion of `u` comes to a directive with these words while `origin` is the current
file. -/
def Performs (resolve : Resolver) (u : SourceUnit) (origin : Option Path) (words : Words) : Prop :=
  ∃ v, ReflTransGen (Includes resolve) u v ∧ v.file = origin ∧
    ∃ text ∈ v.lines, Directive.ofLine? text = .ok (some words)

theorem Performs.resolved {n : Nat} {u : SourceUnit} {out : List Line}
    (h : (expandWithin resolve n u).result = .ok out) {origin : Option Path} {words : Words}
    (hp : Performs resolve u origin words) : (resolve origin words).result = .ok () ∧
      (resolve origin words).trace <:+: (expandWithin resolve n u).trace := by
  obtain ⟨v, huv, rfl, text, htext, hwords⟩ := hp
  induction huv using ReflTransGen.head_induction_on generalizing n out with
  | refl =>
      cases n with
      | zero => cases h
      | succ n =>
          have hdone := expandLines_done h htext hwords
          exact ⟨hdone.resolved, hdone.resolved_trace⟩
  | head hab _ ih =>
      cases n with
      | zero => cases h
      | succ n =>
          obtain ⟨text', htext', words', hwords', hb⟩ := hab
          have hdone := expandLines_done h htext' hwords'
          obtain ⟨given, hgiven⟩ := hdone.expanded _ hb
          obtain ⟨hr, hinfix⟩ := ih hgiven
          exact ⟨hr, hinfix.trans (hdone.expanded_trace _ hb)⟩

/-- Every line that comes out stands in one of the units that are reached, at its number there. -/
theorem mem_expandWithin {n : Nat} {u : SourceUnit} {out : List Line}
    (h : (expandWithin resolve n u).result = .ok out) {line : Line} (hline : line ∈ out) :
    ∃ v, ReflTransGen (Includes resolve) u v ∧ line.origin = v.file ∧
      ∃ i, v.lines[i]? = some line.text ∧ line.number = 1 + i := by
  induction n generalizing u out with
  | zero => cases h
  | succ n ih =>
      rcases mem_expandLines h hline with
        ⟨i, hi, ho, hn⟩ | ⟨text, htext, words, hwords, v, hv, given, hgiven, hmem⟩
      · exact ⟨u, .refl, ho, i, hi, hn⟩
      · obtain ⟨w, hvw, hw⟩ := ih hgiven hmem
        exact ⟨w, .head ⟨text, htext, words, hwords, hv⟩ hvw, hw⟩

/-- In the expansion `run` of `u`, a directive with a local target registers a unit with `path`. -/
def Registers (t : FileTree) (fetch : Remote.Fetcher) (u : SourceUnit)
    (run : Outcome (List Line)) (path : Path) : Prop :=
  ∃ origin words keyword source v, Performs (Include.parse t fetch) u origin words ∧
    words.toList = [keyword, source] ∧ Include.isRemote source = false ∧
    v ∈ (Include.parse t fetch origin words).units ∧ v.file = some path ∧ v ∈ run.units

/-- In the expansion `run` of `u`, a directive in the current file `origin` fetches `url`, and gets
`body`. -/
def Fetches (t : FileTree) (fetch : Remote.Fetcher) (u : SourceUnit) (run : Outcome (List Line))
    (origin : Option Path) (url body : String) : Prop :=
  ∃ words keyword, Performs (Include.parse t fetch) u origin words ∧
    words.toList = [keyword, url] ∧ Include.isRemote url = true ∧
    (fetch url).result = .ok body ∧ (fetch url).trace <:+: run.trace

theorem units_subset {α β : Type} {x : Outcome α} {y : Outcome β} (h : x.trace <:+: y.trace)
    {u : SourceUnit} (hu : u ∈ x.units) : u ∈ y.units :=
  (h.filterMap _).subset hu

/-- Where the lines of a unit come from, and the file that it counts as. -/
structure Sourced (t : FileTree) (fetch : Remote.Fetcher) (root : Path) (u : SourceUnit)
    (run : Outcome (List Line)) (path : Path) (lines : List String) : Prop where
  registered : path = root ∨ Registers t fetch u run path
  given : (∃ text, t.read path = .ok text ∧ lines = Text.linesOfFile text) ∨
    ∃ url body, Fetches t fetch u run (some path) url body ∧ lines = Text.linesOfBody body

theorem trace_prefix_resolve {parent : Option Path} {source : String}
    (h : Include.isRemote source = true) :
    (fetch source).trace <+: (Include.resolve t fetch parent source).trace := by
  rw [Include.resolve_remote h]
  exact trace_prefix_bind ((fetch source).mapFault (Remote.explain source)) _

theorem sourced_of_reached (hfetch : Remote.Plain fetch) {n : Nat} {root : Path}
    {lines : List String} {out : List Line} (hlines : Include.readLines t root = .ok lines)
    (h : (expandWithin (Include.parse t fetch) n ⟨some root, lines⟩).result = .ok out)
    {v : SourceUnit} (hv : ReflTransGen (Includes (Include.parse t fetch)) ⟨some root, lines⟩ v) :
    ∃ path, v.file = some path ∧ Sourced t fetch root ⟨some root, lines⟩
      (expandWithin (Include.parse t fetch) n ⟨some root, lines⟩) path v.lines := by
  induction hv with
  | refl => exact ⟨root, rfl, .inl rfl, .inl (Include.readLines_ok hlines)⟩
  | @tail v w huv hvw ih =>
      obtain ⟨path, hpath, hsourced⟩ := ih
      obtain ⟨text, htext, words, hwords, hw⟩ := hvw
      have hp : Performs (Include.parse t fetch) ⟨some root, lines⟩ v.file words :=
        ⟨v, huv, rfl, text, htext, hwords⟩
      have hinfix := (hp.resolved h).2
      obtain ⟨keyword, source, hpair, hfound⟩ := Include.found_of_mem_units_parse hfetch hw
      cases hfound with
      | fetched hremote body hbody =>
          -- A fetched unit keeps the current file, and so the history of that file.
          refine ⟨path, hpath, hsourced.registered, .inr ⟨source, body, ?_, rfl⟩⟩
          rw [Include.parse_pair _ hpair] at hinfix
          rw [hpath] at hp
          exact ⟨words, keyword, hp, hpair, hremote, hbody,
            (trace_prefix_resolve hremote).isInfix.trans hinfix⟩
      | read hlocal path' lines' hread =>
          refine ⟨path', rfl, .inr ?_, .inl (Include.readLines_ok hread)⟩
          exact ⟨v.file, words, keyword, source, _, hp, hpair, hlocal, hw, rfl,
            units_subset hinfix hw⟩

theorem requests_ne_of_fetches (hfetch : Remote.Plain fetch) {u : SourceUnit}
    {run : Outcome (List Line)} {origin : Option Path} {url body : String}
    (h : Fetches t fetch u run origin url body) : run.requests ≠ [] := by
  obtain ⟨_, _, _, _, _, hbody, hinfix⟩ := h
  intro hnone
  have hsub : (fetch url).requests <:+: run.requests := hinfix.filterMap _
  rw [hnone] at hsub
  exact hfetch.requests_ne url body hbody (List.infix_nil.mp hsub)

theorem expandFile_eq {root : Path} {lines : List String}
    (h : Include.readLines t root = .ok lines) :
    expandFile t fetch root = expand t fetch (some root) lines := by
  rw [expandFile_bind, lift_bind_ok h]

theorem lines_of_expandFile_ok {root : Path} {out : List Line}
    (h : (expandFile t fetch root).result = .ok out) :
    ∃ lines, Include.readLines t root = .ok lines := by
  cases hlines : Include.readLines t root with
  | ok lines => exact ⟨lines, rfl⟩
  | error e => rw [expandFile_bind, lift_bind_error hlines] at h; cases h

/-- The file of a line is the root or one that a directive has registered, and the line stands at its
number in that file, or in a document that was fetched while that file was the current one. -/
structure Placed (t : FileTree) (fetch : Remote.Fetcher) (root : Path) (u : SourceUnit)
    (run : Outcome (List Line)) (line : Line) (path : Path) : Prop where
  positive : 1 ≤ line.number
  origin : line.origin = some path
  registered : path = root ∨ Registers t fetch u run path
  given : (∃ text, t.read path = .ok text ∧
      (Text.linesOfFile text)[line.number - 1]? = some line.text) ∨
    ∃ url body, Fetches t fetch u run (some path) url body ∧
      (Text.linesOfBody body)[line.number - 1]? = some line.text

theorem placed_of_mem (hfetch : Remote.Plain fetch) {n : Nat} {root : Path} {lines : List String}
    {out : List Line} (hlines : Include.readLines t root = .ok lines)
    (h : (expandWithin (Include.parse t fetch) n ⟨some root, lines⟩).result = .ok out)
    {line : Line} (hline : line ∈ out) :
    ∃ path, Placed t fetch root ⟨some root, lines⟩
      (expandWithin (Include.parse t fetch) n ⟨some root, lines⟩) line path := by
  obtain ⟨v, hv, horigin, i, hi, hnumber⟩ := mem_expandWithin h hline
  obtain ⟨path, hpath, hregistered, hgiven⟩ := sourced_of_reached hfetch hlines h hv
  have hindex : line.number - 1 = i := by omega
  refine ⟨path, by omega, horigin.trans hpath, hregistered, ?_⟩
  rw [hindex]
  rcases hgiven with ⟨text, htext, hv⟩ | ⟨url, body, hbody, hv⟩
  · exact .inl ⟨text, htext, hv ▸ hi⟩
  · exact .inr ⟨url, body, hbody, hv ▸ hi⟩

theorem Placed.text_eq (hfetch : Remote.Plain fetch) {root : Path} {u : SourceUnit}
    {run : Outcome (List Line)} (hnone : run.requests = []) {line line' : Line} {path path' : Path}
    (h : Placed t fetch root u run line path) (h' : Placed t fetch root u run line' path')
    (horigin : line.origin = line'.origin) (hnumber : line.number = line'.number) :
    line.text = line'.text := by
  obtain rfl : path = path' := Option.some.inj (h.origin.symm.trans (horigin.trans h'.origin))
  rcases h.given with ⟨text, htext, hi⟩ | ⟨url, body, hbody, _⟩
  · rcases h'.given with ⟨text', htext', hi'⟩ | ⟨url, body, hbody, _⟩
    · obtain rfl : text = text' := Except.ok.inj (htext.symm.trans htext')
      rw [hnumber, hi'] at hi
      exact (Option.some.inj hi).symm
    · exact absurd hnone (requests_ne_of_fetches hfetch hbody)
  · exact absurd hnone (requests_ne_of_fetches hfetch hbody)

/-- Every line of an expanded file has a place, and its text depends on that place alone if nothing
is fetched. -/
theorem expandFile_provenance (hfetch : Remote.Plain fetch) {root : Path} {out : List Line}
    (h : (expandFile t fetch root).result = .ok out) :
    ∃ lines, Include.readLines t root = .ok lines ∧
      (∀ line ∈ out, ∃ path,
        Placed t fetch root ⟨some root, lines⟩ (expandFile t fetch root) line path) ∧
      ((expandFile t fetch root).requests = [] → ∀ line ∈ out, ∀ line' ∈ out,
        line.origin = line'.origin → line.number = line'.number → line.text = line'.text) := by
  obtain ⟨lines, hlines⟩ := lines_of_expandFile_ok h
  rw [expandFile_eq hlines] at h ⊢
  refine ⟨lines, hlines, ?_, ?_⟩
  · intro line hline
    exact placed_of_mem hfetch hlines h hline
  · intro hnone line hline line' hline' horigin hnumber
    obtain ⟨path, hplaced⟩ := placed_of_mem hfetch hlines h hline
    obtain ⟨path', hplaced'⟩ := placed_of_mem hfetch hlines h hline'
    exact hplaced.text_eq hfetch hnone hplaced' horigin hnumber

/-- A file that includes a file and a document. -/
def twoFiles : FileTree where
  root := .directory [
    ("m", .file [33, 105, 110, 99, 108, 117, 100, 101, 32, 110, 10, 33, 105, 110, 99, 108, 117, 100,
      101, 32, 104, 116, 116, 112, 115, 58, 47, 47, 104, 47, 97, 10]),
    ("n", .file [121, 10])]
  current := []
  unlistable := []
  unreadable := []

theorem find_twoFiles (name : String) (hname : name = "m" ∨ name = "n") :
    twoFiles.find ⟨.root, [name]⟩ = .ok [name] := by
  rcases hname with rfl | rfl
  all_goals
    exact FileTree.find_of_walkFor 1 (by decide) (by decide) rfl

theorem readLines_m : Include.readLines twoFiles ⟨.root, ["m"]⟩ =
    .ok ["!include n", "!include https://h/a"] := by
  have hread := FileTree.read_eq (find_twoFiles "m" (.inl rfl)) rfl rfl rfl
  rw [Include.readLines, hread]
  rfl

theorem readLines_n : Include.readLines twoFiles ⟨.root, ["n"]⟩ = .ok ["y"] := by
  have hread := FileTree.read_eq (find_twoFiles "n" (.inr rfl)) rfl rfl rfl
  rw [Include.readLines, hread]
  rfl

theorem resolve_n : (Include.resolve twoFiles (Remote.fetch documents .none) (some ⟨.root, ["m"]⟩)
      "n").result = .ok () ∧
    (Include.resolve twoFiles (Remote.fetch documents .none) (some ⟨.root, ["m"]⟩) "n").units =
      [⟨some ⟨.root, ["n"]⟩, ["y"]⟩] := by
  have htarget : Include.target ⟨.root, ["m"]⟩ "n" = ⟨.root, ["n"]⟩ := by decide
  have hfind := find_twoFiles "n" (.inr rfl)
  have hcontains : twoFiles.contains (Include.target ⟨.root, ["m"]⟩ "n") = .ok true := by
    rw [htarget]
    exact FileTree.leadsTo_eq hfind rfl _
  have hfile : twoFiles.isDirectory ⟨.root, ["n"]⟩ = .ok false := FileTree.leadsTo_eq hfind rfl _
  rw [Include.resolve_found (by decide) hcontains, Include.units_announce, htarget,
    Include.collect_file hfile readLines_n]
  exact ⟨rfl, rfl⟩

theorem expandFile_m :
    (expandFile twoFiles (Remote.fetch documents .none) ⟨.root, ["m"]⟩).result =
      .ok [⟨some ⟨.root, ["n"]⟩, 1, "y"⟩, ⟨some ⟨.root, ["m"]⟩, 1, "x"⟩] := by
  have hn : Directive.ofLine? "!include n" = .ok (some ⟨["!include", "n"]⟩) := rfl
  have hx : Directive.ofLine? "x" = .ok none := rfl
  have hy : Directive.ofLine? "y" = .ok none := rfl
  have hunits (origin : Option Path) (text : String) (h : Directive.ofLine? text = .ok none) :
      (concat ([⟨origin, [text]⟩].map (expandWithin
        (Include.parse twoFiles (Remote.fetch documents .none)) 899))).result =
        .ok [⟨origin, 1, text⟩] := by
    rw [List.map_cons, List.map_nil, concat_singleton]
    exact result_expandLines_own h origin 1
  have hfound : (Include.parse twoFiles (Remote.fetch documents .none) (some ⟨.root, ["m"]⟩)
      ⟨["!include", "https://h/a"]⟩).units = [⟨some ⟨.root, ["m"]⟩, ["x"]⟩] :=
    Include.units_parse_remote (Remote.plain_fetch _ _) rfl rfl fetch_a _
  have hresolved : (Include.resolve twoFiles (Remote.fetch documents .none) (some ⟨.root, ["m"]⟩)
      "https://h/a").result = .ok () := Include.result_resolve_remote rfl fetch_a _
  rw [expandFile_eq readLines_m]
  exact result_expandLines_cons
    (result_expandLine hn resolve_n.1 resolve_n.2 (hunits _ "y" hy) 1)
    (result_expandLines_cons (result_expandLine line_a hresolved hfound (hunits _ "x" hx) 2) rfl)

theorem expandFile_provenance_m :
    ∃ lines, Include.readLines twoFiles ⟨.root, ["m"]⟩ = .ok lines ∧
      (∀ line ∈ [⟨some ⟨.root, ["n"]⟩, 1, "y"⟩, ⟨some ⟨.root, ["m"]⟩, 1, "x"⟩], ∃ path,
        Placed twoFiles (Remote.fetch documents .none) ⟨.root, ["m"]⟩ ⟨some ⟨.root, ["m"]⟩, lines⟩
          (expandFile twoFiles (Remote.fetch documents .none) ⟨.root, ["m"]⟩) line path) := by
  obtain ⟨lines, hlines, hplaced, _⟩ :=
    expandFile_provenance (Remote.plain_fetch documents .none) expandFile_m
  exact ⟨lines, hlines, hplaced⟩

end Splice.Reader
