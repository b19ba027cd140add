import Splice.Proofs.Reader.Provenance
import Splice.World

namespace Splice.Include

open Outcome

variable {t : FileTree} {fetch : Remote.Fetcher}

theorem resolve_none (t t' : FileTree) (fetch : Remote.Fetcher) (source : String) :
    resolve t' fetch none source = resolve t fetch none source := by
  cases hr : isRemote source with
  | true => rw [resolve_remote hr, resolve_remote hr]
  | false => rw [resolve_ignored hr, resolve_ignored hr]

theorem parse_none (t t' : FileTree) (fetch : Remote.Fetcher) (words : Words) :
    parse t' fetch none words = parse t fetch none words := by
  unfold parse parseIn
  split
  · rfl
  · exact resolve_none t t' fetch _
  · rfl

theorem file_of_mem_units (hfetch : ∀ url, (fetch url).units = []) {source : String}
    {u : SourceUnit} (hu : u ∈ (resolve t fetch none source).units) : u.file = none := by
  cases hr : isRemote source with
  | true =>
      rw [resolve_remote hr] at hu
      rcases mem_units_bind.mp hu with hu | ⟨body, _, hu⟩
      · rw [units_mapFault, hfetch] at hu
        cases hu
      · obtain rfl := List.mem_singleton.mp hu
        rfl
  | false =>
      rw [resolve_ignored hr] at hu
      cases hu

theorem file_of_mem_units_parse (hfetch : ∀ url, (fetch url).units = []) {words : Words}
    {u : SourceUnit} (hu : u ∈ (parse t fetch none words).units) : u.file = none := by
  unfold parse parseIn at hu
  split at hu
  · cases hu
  · exact file_of_mem_units hfetch hu
  · cases hu

end Splice.Include

namespace Splice.Reader

open Outcome Relation

variable {resolve resolve' : Resolver} {origin : Option Path}

theorem expandLine_congr {expand expand' : SourceUnit → Outcome (List Line)}
    (hresolve : ∀ words, resolve' origin words = resolve origin words)
    (hexpand : ∀ words, ∀ u ∈ (resolve origin words).units, expand' u = expand u) (number : Nat)
    (text : String) :
    expandLine resolve' expand' origin number text = expandLine resolve expand origin number text := by
  cases hline : Directive.ofLine? text with
  | error e => rw [expandLine_invalid hline, expandLine_invalid hline]
  | ok words? =>
      cases words? with
      | none => rw [expandLine_own hline, expandLine_own hline]
      | some words =>
          rw [expandLine_directive hline, expandLine_directive hline, hresolve,
            List.map_congr_left (hexpand words)]

theorem expandLines_congr {expand expand' : SourceUnit → Outcome (List Line)}
    (hresolve : ∀ words, resolve' origin words = resolve origin words)
    (hexpand : ∀ words, ∀ u ∈ (resolve origin words).units, expand' u = expand u) (number : Nat)
    (lines : List String) :
    expandLines resolve' expand' origin number lines =
      expandLines resolve expand origin number lines := by
  induction lines generalizing number with
  | nil => rfl
  | cons text rest ih =>
      rw [expandLines_bind, expandLines_bind, expandLine_congr hresolve hexpand, ih]

/-- Resolvers that agree on a current file agree on every expansion that never leaves it. -/
theorem expandWithin_eq_of_kept (hresolve : ∀ words, resolve' origin words = resolve origin words)
    (hkept : ∀ words, ∀ u ∈ (resolve origin words).units, u.file = origin) (n : Nat)
    {u : SourceUnit} (hu : u.file = origin) :
    expandWithin resolve' n u = expandWithin resolve n u := by
  induction n generalizing u with
  | zero => rfl
  | succ n ih =>
      rw [expandWithin_succ, expandWithin_succ, hu]
      apply expandLines_congr hresolve
      intro words v hv
      exact ih (hkept words v hv)

theorem file_of_reached (hkept : ∀ words, ∀ u ∈ (resolve origin words).units, u.file = origin)
    {u v : SourceUnit} (hu : u.file = origin) (h : ReflTransGen (Includes resolve) u v) :
    v.file = origin := by
  induction h with
  | refl => exact hu
  | tail _ hincludes ih =>
      obtain ⟨text, _, words, _, hv⟩ := hincludes
      rw [ih] at hv
      exact hkept words _ hv

theorem origin_of_kept (hkept : ∀ words, ∀ u ∈ (resolve origin words).units, u.file = origin)
    {n : Nat} {u : SourceUnit} (hu : u.file = origin) {out : List Line}
    (h : (expandWithin resolve n u).result = .ok out) : ∀ line ∈ out, line.origin = origin := by
  intro line hline
  obtain ⟨v, hv, horigin, _⟩ := mem_expandWithin h hline
  exact horigin.trans (file_of_reached hkept hu hv)

/-- Lines that belong to no file expand to the same, by the same requests, in every two worlds whose
network has the same documents, and all lines that come out belong to no file. -/
theorem expand_memory {w w' : World} (hremote : w.remote = w'.remote)
    (fetch : Remote.Table → Remote.Fetcher) (hfetch : ∀ table url, (fetch table url).units = [])
    (lines : List String) :
    (∀ n, expandWithin (Include.parse w.files (fetch w.remote)) n ⟨none, lines⟩ =
      expandWithin (Include.parse w'.files (fetch w'.remote)) n ⟨none, lines⟩) ∧
    expand w.files (fetch w.remote) none lines = expand w'.files (fetch w'.remote) none lines ∧
    ∀ n out, (expandWithin (Include.parse w.files (fetch w.remote)) n ⟨none, lines⟩).result =
      .ok out → ∀ line ∈ out, line.origin = none := by
  have hkept (words : Words) : ∀ u ∈ (Include.parse w.files (fetch w.remote) none words).units,
      u.file = none := fun _ hu => Include.file_of_mem_units_parse (hfetch w.remote) hu
  have hsame (n : Nat) : expandWithin (Include.parse w'.files (fetch w'.remote)) n ⟨none, lines⟩ =
      expandWithin (Include.parse w.files (fetch w.remote)) n ⟨none, lines⟩ := by
    rw [← hremote]
    exact expandWithin_eq_of_kept (Include.parse_none _ _ _) hkept n rfl
  refine ⟨fun n => (hsame n).symm, (hsame deepest).symm, ?_⟩
  intro n out h
  exact origin_of_kept hkept rfl h

def inWorld (files : FileTree) : World := ⟨files, ⟨.root, []⟩, [], documents, [], fun _ => ""⟩

theorem parse_n : (Include.parse noFiles (Remote.fetch documents .none) none
      ⟨["!include", "n"]⟩).result = .ok () ∧
    (Include.parse noFiles (Remote.fetch documents .none) none ⟨["!include", "n"]⟩).units = [] := by
  rw [Include.parse_pair none rfl, Include.resolve_ignored rfl]
  exact ⟨rfl, rfl⟩

theorem parse_a : (Include.parse noFiles (Remote.fetch documents .none) none
      ⟨["!include", "https://h/a"]⟩).result = .ok () ∧
    (Include.parse noFiles (Remote.fetch documents .none) none
      ⟨["!include", "https://h/a"]⟩).units = [⟨none, ["x"]⟩] := by
  refine ⟨?_, Include.units_parse_remote (Remote.plain_fetch _ _) rfl rfl fetch_a _⟩
  rw [Include.parse_pair none rfl]
  exact Include.result_resolve_remote rfl fetch_a _

theorem expand_noFiles :
    (expand noFiles (Remote.fetch documents .none) none
      ["!include n", "!include https://h/a"]).result = .ok [⟨none, 1, "x"⟩] := by
  have hn : Directive.ofLine? "!include n" = .ok (some ⟨["!include", "n"]⟩) := rfl
  have hnone : (concat (([] : List SourceUnit).map (expandWithin
      (Include.parse noFiles (Remote.fetch documents .none)) 899))).result = .ok [] := rfl
  have hx : (concat ([⟨none, ["x"]⟩].map (expandWithin
      (Include.parse noFiles (Remote.fetch documents .none)) 899))).result =
        .ok [⟨none, 1, "x"⟩] := by
    rw [List.map_singleton, concat_singleton]
    exact result_expandLines_own rfl none 1
  have hfirst := result_expandLine hn parse_n.1 parse_n.2 hnone 1
  have hrest := result_expandLine line_a parse_a.1 parse_a.2 hx 2
  exact result_expandLines_cons hfirst (result_expandLines_cons hrest rfl)

/-- The file is there in one world only, and does not come out in either. -/
theorem expand_memory_documents :
    (inWorld noFiles).remote = (inWorld twoFiles).remote ∧
    noFiles.node? ["n"] = none ∧ twoFiles.node? ["n"] = some (.file [121, 10]) ∧
    (expand twoFiles (Remote.fetch documents .none) none
      ["!include n", "!include https://h/a"]).result = .ok [⟨none, 1, "x"⟩] := by
  have hremote : (inWorld noFiles).remote = (inWorld twoFiles).remote := rfl
  obtain ⟨_, hsame, _⟩ := expand_memory hremote (fun table => Remote.fetch table .none)
    (fun table => (Remote.plain_fetch table .none).units_eq) ["!include n", "!include https://h/a"]
  exact ⟨hremote, rfl, rfl, (congrArg result hsame).symm.trans expand_noFiles⟩

end Splice.Reader
