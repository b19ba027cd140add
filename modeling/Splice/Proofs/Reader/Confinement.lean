import Splice.Proofs.Include.Order
import Splice.Proofs.Reader.Provenance

namespace Splice

open Outcome Relation

/-- The path goes on from the directory, by one name at least. -/
structure Path.Under (base p : Path) : Prop where
  anchor : p.anchor = base.anchor
  start : base.parts <+: p.parts
  longer : base.parts.length < p.parts.length

namespace FileTree

variable {t : FileTree} {p : Path} {l : Location}

theorem isDirectory_parent (h : t.find p = .ok l) (hparts : p.parts ≠ []) :
    t.isDirectory p.parent = .ok true := by
  have hchild : p.parent.child (p.parts.getLast hparts) = p := by
    show Path.mk p.anchor (p.parts.dropLast ++ [p.parts.getLast hparts]) = p
    rw [List.dropLast_append_getLast]
  obtain ⟨left, hleads⟩ := find_ok_iff.mp h
  rw [← hchild] at hleads
  obtain ⟨-, here, links, hparent, -, hwalk⟩ := leads_child.mp hleads
  cases hstep : step t.root links here (p.parts.getLast hparts) with
  | error why =>
      rw [walkLeft_cons_error hstep] at hwalk
      cases hwalk
  | ok s =>
      rw [step] at hstep
      split at hstep
      · rename_i es hes
        exact isDirectory_true_iff.mpr ⟨here, es, find_ok_iff.mpr ⟨links, hparent⟩, hes⟩
      · cases hstep

theorem parts_ne_nil_of_read {es : List (String × Node)}
    (hcurrent : t.node? t.current = some (.directory es)) {text : String}
    (h : t.read p = .ok text) : p.parts ≠ [] := by
  intro hparts
  obtain ⟨l, bs, -, hl, hbs, -⟩ := read_ok h
  obtain ⟨left, -, -, hwalk⟩ := find_ok_iff.mp hl
  rw [hparts, walkLeft_nil] at hwalk
  obtain ⟨rfl, -⟩ := Prod.mk.inj (Except.ok.inj hwalk)
  rw [start] at hbs
  split at hbs
  · obtain ⟨es', hroot⟩ : ∃ es', t.root = .directory es' := by
      unfold node? at hcurrent
      cases hc : t.current with
      | nil =>
          rw [hc] at hcurrent
          exact ⟨es, Option.some.inj hcurrent⟩
      | cons name rest =>
          rw [hc] at hcurrent
          cases hr : t.root with
          | directory es' => exact ⟨es', rfl⟩
          | file | link => rw [hr] at hcurrent; cases hcurrent
    have hfile : t.root = .file bs := Option.some.inj hbs
    rw [hroot] at hfile
    cases hfile
  · rw [hcurrent] at hbs
    cases hbs

end FileTree

namespace Include

variable {t : FileTree} {fetch : Remote.Fetcher} {base p file : Path} {u : SourceUnit}

theorem under_pathBelow (hanchor : p.anchor = base.anchor) (hstart : base.parts <+: p.parts)
    {names : List String} (hnames : names ≠ []) : base.Under (pathBelow p names) where
  anchor := hanchor
  start := hstart.trans (List.prefix_append _ _)
  longer := by
    have hpos := List.length_pos_iff.mpr hnames
    have hle := hstart.length_le
    rw [pathBelow, List.length_append]
    omega

theorem start_parent (h : base.Under p) : base.parts <+: p.parent.parts := by
  obtain ⟨more, hmore⟩ := h.start
  have hne : more ≠ [] := by
    rintro rfl
    have hlonger := h.longer
    rw [← hmore, List.append_nil] at hlonger
    exact Nat.lt_irrefl _ hlonger
  refine ⟨more.dropLast, ?_⟩
  rw [Path.parent, ← hmore, List.dropLast_append_of_ne_nil hne]

theorem pathBelow_of_mem_units {n : Nat} (hu : u ∈ (collectWithin t n p).units) :
    ∃ names, u.file = some (pathBelow p names) ∧ (t.isDirectory p = .ok true → names ≠ []) := by
  obtain ⟨names, lines, rfl, -, hbelow⟩ := mem_units_collectWithin hu
  exact ⟨names, rfl, hbelow⟩

/-- A target leads from a file that can be read to files under the same directory. If it has no name
of its own, it is the directory of the file, and what is found lies below that. -/
theorem under_of_mem_units {source text : String} (hfile : base.Under file)
    (hread : t.read file = .ok text) (h : isRemote source = false)
    (hu : u ∈ (resolve t fetch (some file) source).units) :
    ∃ q, u.file = some q ∧ base.Under q := by
  obtain ⟨names, hnames, hbelow⟩ := pathBelow_of_mem_units (collected_of_mem_units h hu)
  have htarget : pathBelow (target file source) names =
      pathBelow file.parent ((Path.ofText source).parts ++ names) := by
    rw [target, Path.nest, pathBelow, pathBelow, List.append_assoc]
  refine ⟨_, hnames, ?_⟩
  rw [htarget]
  refine under_pathBelow (p := file.parent) hfile.anchor (start_parent hfile) ?_
  intro hnone
  obtain ⟨hsource, rfl⟩ := List.append_eq_nil_iff.mp hnone
  obtain ⟨l, _, _, hfind, _⟩ := FileTree.read_ok hread
  have hparts : file.parts ≠ [] := List.ne_nil_of_length_pos (by have := hfile.longer; omega)
  have hdirectory : t.isDirectory (target file source) = .ok true := by
    rw [target, Path.nest, hsource, List.append_nil]
    exact FileTree.isDirectory_parent hfind hparts
  exact hbelow hdirectory rfl

end Include

namespace Reader

variable {t : FileTree} {fetch : Remote.Fetcher} {resolve : Resolver}
  {expand : SourceUnit → Outcome (List Line)} {base root : Path} {u v : SourceUnit}

theorem mem_units_concat {xs : List (Outcome (List Line))} (hu : u ∈ (concat xs).units) :
    ∃ x ∈ xs, u ∈ x.units := by
  induction xs with
  | nil => cases hu
  | cons x xs ih =>
      rcases mem_units_bind.mp hu with hu | ⟨_, _, hu⟩
      · exact ⟨x, List.mem_cons_self, hu⟩
      · rcases mem_units_bind.mp hu with hu | ⟨_, _, hu⟩
        · obtain ⟨y, hy, hu⟩ := ih hu
          exact ⟨y, List.mem_cons_of_mem _ hy, hu⟩
        · cases hu

theorem mem_units_expandLine {origin : Option Path} {number : Nat} {text : String}
    (hu : u ∈ (expandLine resolve expand origin number text).units) :
    ∃ words, Directive.ofLine? text = .ok (some words) ∧ (u ∈ (resolve origin words).units ∨
      ∃ w ∈ (resolve origin words).units, u ∈ (expand w).units) := by
  cases hline : Directive.ofLine? text with
  | error e => rw [expandLine_invalid hline] at hu; cases hu
  | ok words? =>
      cases words? with
      | none => rw [expandLine_own hline] at hu; cases hu
      | some words =>
          rw [expandLine_directive hline] at hu
          refine ⟨words, rfl, (mem_units_bind.mp hu).imp_right ?_⟩
          rintro ⟨_, _, hu⟩
          obtain ⟨x, hx, hu⟩ := mem_units_concat hu
          obtain ⟨w, hw, rfl⟩ := List.mem_map.mp hx
          exact ⟨w, hw, hu⟩

theorem mem_units_expandLines {origin : Option Path} {number : Nat} {lines : List String}
    (hu : u ∈ (expandLines resolve expand origin number lines).units) :
    ∃ text ∈ lines, ∃ words, Directive.ofLine? text = .ok (some words) ∧
      (u ∈ (resolve origin words).units ∨
        ∃ w ∈ (resolve origin words).units, u ∈ (expand w).units) := by
  induction lines generalizing number with
  | nil => cases hu
  | cons text rest ih =>
      rw [expandLines_cons] at hu
      obtain ⟨x, hx, hu⟩ := mem_units_concat hu
      simp only [List.mem_cons, List.not_mem_nil, or_false] at hx
      rcases hx with rfl | rfl
      · exact ⟨text, List.mem_cons_self, mem_units_expandLine hu⟩
      · obtain ⟨text', htext, h⟩ := ih hu
        exact ⟨text', List.mem_cons_of_mem _ htext, h⟩

theorem reached_of_mem_units {n : Nat} (hv : v ∈ (expandWithin resolve n u).units) :
    ReflTransGen (Includes resolve) u v := by
  induction n generalizing u with
  | zero => cases hv
  | succ n ih =>
      obtain ⟨text, htext, words, hwords, hv | ⟨w, hw, hv⟩⟩ := mem_units_expandLines hv
      · exact .single ⟨text, htext, words, hwords, hv⟩
      · exact .head ⟨text, htext, words, hwords, hw⟩ (ih hv)

/-- The unit counts as a file under the directory, and that file can be read. -/
def Confined (t : FileTree) (base : Path) (u : SourceUnit) : Prop :=
  ∃ file text, u.file = some file ∧ t.read file = .ok text ∧ base.Under file

theorem Confined.includes (hfetch : Remote.Plain fetch) (hu : Confined t base u)
    (huv : Includes (Include.parse t fetch) u v) : Confined t base v := by
  obtain ⟨file, text, hfile, hread, hunder⟩ := hu
  obtain ⟨_, _, words, _, hv⟩ := huv
  obtain ⟨keyword, source, hpair, hfound⟩ := Include.found_of_mem_units_parse hfetch hv
  rw [hfile, Include.parse_pair _ hpair] at hv
  cases hfound with
  | fetched hremote body hbody => exact ⟨file, text, hfile, hread, hunder⟩
  | read hlocal path lines hlines =>
      obtain ⟨text', htext', _⟩ := Include.readLines_ok hlines
      obtain ⟨q, hq, hqunder⟩ := Include.under_of_mem_units hunder hread hlocal hv
      cases hq
      exact ⟨path, text', rfl, htext', hqunder⟩

theorem Confined.reached (hfetch : Remote.Plain fetch) (hu : Confined t base u)
    (h : ReflTransGen (Includes (Include.parse t fetch)) u v) : Confined t base v := by
  induction h with
  | refl => exact hu
  | tail _ hincludes ih => exact ih.includes hfetch hincludes

theorem confined_root {es : List (String × Node)}
    (hcurrent : t.node? t.current = some (.directory es)) {lines : List String}
    (hlines : Include.readLines t root = .ok lines) :
    Confined t root.parent ⟨some root, lines⟩ := by
  obtain ⟨text, hread, _⟩ := Include.readLines_ok hlines
  have hparts := FileTree.parts_ne_nil_of_read hcurrent hread
  refine ⟨root, text, rfl, hread, rfl, List.dropLast_prefix _, ?_⟩
  rw [Path.parent, List.length_dropLast]
  exact Nat.sub_lt (List.length_pos_iff.mpr hparts) Nat.one_pos

/-- All that an expansion of a file registers, and every line that comes out, counts as a file under
the directory of the first, whatever the directives name. -/
theorem expandFile_confined {es : List (String × Node)}
    (hcurrent : t.node? t.current = some (.directory es)) (hfetch : Remote.Plain fetch)
    (root : Path) :
    (∀ u ∈ (expandFile t fetch root).units, ∃ file, u.file = some file ∧ root.parent.Under file) ∧
    ∀ out, (expandFile t fetch root).result = .ok out → ∀ line ∈ out,
      ∃ file, line.origin = some file ∧ root.parent.Under file := by
  cases hlines : Include.readLines t root with
  | error e =>
      rw [expandFile_bind, lift_bind_error hlines]
      exact ⟨by rintro _ ⟨⟩, by rintro _ ⟨⟩⟩
  | ok lines =>
      have hconfined := confined_root hcurrent hlines
      rw [expandFile_eq hlines]
      refine ⟨fun u hu => ?_, fun out hout line hline => ?_⟩
      · obtain ⟨file, _, hfile, _, hunder⟩ := hconfined.reached hfetch (reached_of_mem_units hu)
        exact ⟨file, hfile, hunder⟩
      · obtain ⟨v, hv, horigin, _⟩ := mem_expandWithin hout hline
        obtain ⟨file, _, hfile, _, hunder⟩ := hconfined.reached hfetch hv
        exact ⟨file, horigin.trans hfile, hunder⟩

/-- A file that includes the one beside it as if that lay at a root. -/
def besideRoot : FileTree where
  root := .directory [("d", .directory [
    ("m", .file [33, 105, 110, 99, 108, 117, 100, 101, 32, 47, 47, 110, 10]),
    ("n", .file [121, 10])])]
  current := []
  unlistable := []
  unreadable := []

theorem find_besideRoot (name : String) (hname : name = "m" ∨ name = "n") :
    besideRoot.find ⟨.root, ["d", name]⟩ = .ok ["d", name] := by
  rcases hname with rfl | rfl
  all_goals
    exact FileTree.find_of_walkFor 2 (by decide) (by decide) rfl

theorem readLines_besideRoot :
    Include.readLines besideRoot ⟨.root, ["d", "m"]⟩ = .ok ["!include //n"] ∧
      Include.readLines besideRoot ⟨.root, ["d", "n"]⟩ = .ok ["y"] := by
  constructor
  · rw [Include.readLines, FileTree.read_eq (find_besideRoot "m" (.inl rfl)) rfl rfl rfl]
    rfl
  · rw [Include.readLines, FileTree.read_eq (find_besideRoot "n" (.inr rfl)) rfl rfl rfl]
    rfl

theorem expandFile_besideRoot (fetch : Remote.Fetcher) :
    (expandFile besideRoot fetch ⟨.root, ["d", "m"]⟩).result =
      .ok [⟨some ⟨.root, ["d", "n"]⟩, 1, "y"⟩] := by
  have hline : Directive.ofLine? "!include //n" = .ok (some ⟨["!include", "//n"]⟩) := rfl
  have htarget : Include.target ⟨.root, ["d", "m"]⟩ "//n" = ⟨.root, ["d", "n"]⟩ := by decide
  have hfind := find_besideRoot "n" (.inr rfl)
  have hcontains : besideRoot.contains (Include.target ⟨.root, ["d", "m"]⟩ "//n") = .ok true := by
    rw [htarget]
    exact FileTree.leadsTo_eq hfind rfl _
  have hfile : besideRoot.isDirectory ⟨.root, ["d", "n"]⟩ = .ok false :=
    FileTree.leadsTo_eq hfind rfl _
  have hresolve : Include.resolve besideRoot fetch (some ⟨.root, ["d", "m"]⟩) "//n" = _ :=
    Include.resolve_found (by decide) hcontains
  rw [htarget, Include.collect_file hfile readLines_besideRoot.2] at hresolve
  have hunits : (concat ([⟨some ⟨.root, ["d", "n"]⟩, ["y"]⟩].map
      (expandWithin (Include.parse besideRoot fetch) 899))).result =
        .ok [⟨some ⟨.root, ["d", "n"]⟩, 1, "y"⟩] := by
    rw [List.map_singleton, concat_singleton]
    exact result_expandLines_own rfl _ 1
  have hparse : Include.parse besideRoot fetch (some ⟨.root, ["d", "m"]⟩)
      ⟨["!include", "//n"]⟩ = _ := (Include.parse_pair _ rfl).trans hresolve
  rw [expandFile_eq readLines_besideRoot.1]
  refine result_expandLines_cons (result_expandLine hline ?_ ?_ hunits 1) rfl
  · rw [hparse]
  · rw [hparse]
    rfl

theorem expandFile_confined_besideRoot :
    besideRoot.node? besideRoot.current = some besideRoot.root ∧
    (expandFile besideRoot (Remote.fetch [] .none) ⟨.root, ["d", "m"]⟩).result =
      .ok [⟨some ⟨.root, ["d", "n"]⟩, 1, "y"⟩] ∧
    (Path.parent ⟨.root, ["d", "m"]⟩).Under ⟨.root, ["d", "n"]⟩ := by
  have hrun := expandFile_besideRoot (Remote.fetch [] .none)
  obtain ⟨-, hlines⟩ := expandFile_confined (t := besideRoot) rfl (Remote.plain_fetch [] .none)
    ⟨.root, ["d", "m"]⟩
  obtain ⟨file, hfile, hunder⟩ := hlines _ hrun _ List.mem_cons_self
  cases hfile
  exact ⟨rfl, hrun, hunder⟩

end Reader

end Splice
