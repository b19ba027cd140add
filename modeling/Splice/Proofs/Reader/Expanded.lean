import Splice.Proofs.Reader.PassThrough
import Splice.Proofs.Reader.Splicing

namespace Splice.Reader

open Outcome

variable {resolve : Resolver} {expand : SourceUnit → Outcome (List Line)} {out : List Line}

/-- No line is a directive, nor begins like one and cannot be split into words. -/
def NoDirectives (out : List Line) : Prop := ∀ line ∈ out, Directive.ofLine? line.text = .ok none

theorem noDirectives_of_expandLine
    (hexpand : ∀ u given, (expand u).result = .ok given → NoDirectives given)
    {origin : Option Path} {number : Nat} {text : String}
    (h : (expandLine resolve expand origin number text).result = .ok out) : NoDirectives out := by
  cases htext : Directive.ofLine? text with
  | error e => rw [expandLine_invalid htext] at h; cases h
  | ok words? =>
      cases words? with
      | none =>
          rw [expandLine_own htext] at h
          cases h
          intro line hline
          obtain rfl := List.mem_singleton.mp hline
          exact htext
      | some words =>
          rw [expandLine_directive htext] at h
          obtain ⟨_, _, hunits⟩ := result_bind_ok_iff.mp h
          intro line hline
          obtain ⟨part, hpart, given, hgiven, hmem⟩ := mem_concat hunits hline
          obtain ⟨u, _, rfl⟩ := List.mem_map.mp hpart
          exact hexpand u given hgiven line hmem

theorem noDirectives_of_expandLines
    (hexpand : ∀ u given, (expand u).result = .ok given → NoDirectives given)
    {origin : Option Path} {number : Nat} {lines : List String}
    (h : (expandLines resolve expand origin number lines).result = .ok out) :
    NoDirectives out := by
  induction lines generalizing number out with
  | nil =>
      cases h
      exact fun _ hline => absurd hline List.not_mem_nil
  | cons text rest ih =>
      rw [expandLines_cons] at h
      intro line hline
      obtain ⟨part, hpart, given, hgiven, hmem⟩ := mem_concat h hline
      simp only [List.mem_cons, List.not_mem_nil, or_false] at hpart
      rcases hpart with rfl | rfl
      · exact noDirectives_of_expandLine hexpand hgiven line hmem
      · exact ih hgiven line hmem

/-- Every line that comes out has been looked at as a later expansion would look at it, at whatever
depth of inclusion it stood. -/
theorem noDirectives_of_expandWithin {n : Nat} {u : SourceUnit}
    (h : (expandWithin resolve n u).result = .ok out) : NoDirectives out := by
  induction n generalizing u out with
  | zero => cases h
  | succ n ih => exact noDirectives_of_expandLines (fun _ _ hgiven => ih hgiven) h

theorem expandWithin_of_noDirectives (h : NoDirectives out) (resolve : Resolver) (n : Nat)
    (origin : Option Path) :
    expandWithin resolve (n + 1) ⟨origin, out.map Line.text⟩ =
      pure (numbered origin 1 (out.map Line.text)) := by
  refine expandLines_own origin 1 ?_
  intro text htext
  obtain ⟨line, hline, rfl⟩ := List.mem_map.mp htext
  exact h line hline

/-- What has been expanded is its own expansion: no line of it is a directive or begins like one, and
in every tree, by every fetcher and under every current file it comes out as it is, numbered from
one, without a request, a unit or a record. -/
theorem expand_expanded {t : FileTree} {fetch : Remote.Fetcher}
    (h : (∃ origin lines, (Reader.expand t fetch origin lines).result = .ok out) ∨
      ∃ p, (expandFile t fetch p).result = .ok out) :
    (∀ line ∈ out, Directive.ofLine? line.text = .ok none) ∧
    (∀ t' fetch' origin', Reader.expand t' fetch' origin' (out.map Line.text) =
      ⟨[], .ok (numbered origin' 1 (out.map Line.text))⟩) ∧
    ∀ (resolve' : Resolver) n origin', expandWithin resolve' (n + 1) ⟨origin', out.map Line.text⟩ =
      ⟨[], .ok (numbered origin' 1 (out.map Line.text))⟩ := by
  have hnone : NoDirectives out := by
    rcases h with ⟨origin, lines, h⟩ | ⟨p, h⟩
    · exact noDirectives_of_expandWithin h
    · rw [expandFile_bind] at h
      obtain ⟨lines, _, h⟩ := result_bind_ok_iff.mp h
      exact noDirectives_of_expandWithin h
  refine ⟨hnone, fun t' fetch' origin' => ?_, fun resolve' n origin' => ?_⟩
  · exact expandWithin_of_noDirectives hnone (Include.parse t' fetch') (deepest - 1) origin'
  · exact expandWithin_of_noDirectives hnone resolve' n origin'

/-- The line that was fetched, number one of its document, is the second of three. -/
theorem expand_expanded_documents :
    (Reader.expand noFiles (Remote.fetch documents .none) none
      ["p", "!include https://h/a", "q"]).result =
        .ok [⟨none, 1, "p"⟩, ⟨none, 1, "x"⟩, ⟨none, 3, "q"⟩] ∧
    Reader.expand noFiles (Remote.direct []) (some ⟨.root, ["m"]⟩) ["p", "x", "q"] =
      ⟨[], .ok [⟨some ⟨.root, ["m"]⟩, 1, "p"⟩, ⟨some ⟨.root, ["m"]⟩, 2, "x"⟩,
        ⟨some ⟨.root, ["m"]⟩, 3, "q"⟩]⟩ :=
  ⟨expand_documents, (expand_expanded (.inl ⟨none, _, expand_documents⟩)).2.1 noFiles
    (Remote.direct []) (some ⟨.root, ["m"]⟩)⟩

end Splice.Reader
