import Splice.Proofs.Reader.Termination

namespace Splice.Reader

open Outcome

variable {resolve : Resolver} {inner : SourceUnit → Outcome (List Line)}

def isKept (text : String) : Bool :=
  match Directive.ofLine? text with
  | .ok none => true
  | _ => false

/-- Expand lines, and mark what comes out by whether the source itself holds it. -/
def expandMarked (resolve : Resolver) (inner : SourceUnit → Outcome (List Line))
    (origin : Option Path) (number : Nat) : List String → Outcome (List (Line × Bool))
  | [] => pure []
  | text :: rest => do
    return (← (·.map fun l => (l, isKept text)) <$> expandLine resolve inner origin number text) ++
      (← expandMarked resolve inner origin (number + 1) rest)

def markedWithin (resolve : Resolver) : Nat → SourceUnit → Outcome (List (Line × Bool))
  | 0, _ => .fail .tooDeep
  | budget + 1, u => expandMarked resolve (expandWithin resolve budget) u.file 1 u.lines

/-- Move a line of the source itself down by `k` places; what it includes stays as it is. -/
def renumber (k : Nat) (m : Line × Bool) : Line :=
  if m.2 then { m.1 with number := m.1.number + k } else m.1

theorem expandLine_renumber (origin : Option Path) (number k : Nat) (text : String) :
    (fun ls : List Line => ls.map fun l => renumber k (l, isKept text)) <$>
        expandLine resolve inner origin number text =
      expandLine resolve inner origin (number + k) text := by
  cases hline : Directive.ofLine? text with
  | error e => rw [expandLine_invalid hline, expandLine_invalid hline]; rfl
  | ok words? =>
      cases words? with
      | none =>
          have hkept : isKept text = true := by simp [isKept, hline]
          rw [expandLine_own hline, expandLine_own hline, map_pure, hkept]
          rfl
      | some words =>
          have hkept : isKept text = false := by simp [isKept, hline]
          rw [expandLine_directive hline, expandLine_directive hline, hkept]
          have hid : (fun ls : List Line => ls.map fun l => renumber k (l, false)) = id := by
            funext ls
            exact List.map_id ls
          rw [hid, id_map]

theorem expandMarked_renumber (origin : Option Path) (number k : Nat) (lines : List String) :
    (fun ms : List (Line × Bool) => ms.map (renumber k)) <$>
        expandMarked resolve inner origin number lines =
      expandLines resolve inner origin (number + k) lines := by
  induction lines generalizing number with
  | nil => rfl
  | cons text rest ih =>
      rw [expandMarked, expandLines_bind, Nat.add_right_comm, ← ih (number + 1),
        ← expandLine_renumber origin number k text]
      simp only [map_eq_pure_bind, bind_assoc, pure_bind, List.map_append, List.map_map,
        Function.comp_def]

theorem expandMarked_lines (origin : Option Path) (number : Nat) (lines : List String) :
    (fun ms : List (Line × Bool) => ms.map Prod.fst) <$>
        expandMarked resolve inner origin number lines =
      expandLines resolve inner origin number lines := by
  have hfst : (renumber 0 : Line × Bool → Line) = Prod.fst := by
    funext m
    simp [renumber]
  rw [← hfst]
  exact expandMarked_renumber origin number 0 lines

/-- The parts into which a directive cuts an expansion: the lines before it, its target, the units
found there, and the lines after it, with their numbers in the whole. -/
def parts (resolve : Resolver) (budget nested : Nat) (origin : Option Path)
    (before after : List String) (words : Words) : List (Outcome (List Line)) :=
  [expandWithin resolve budget ⟨origin, before⟩, (fun _ => []) <$> resolve origin words] ++
    ((resolve origin words).units.map (expandWithin resolve nested) ++
      [(fun ms : List (Line × Bool) => ms.map (renumber (before.length + 1))) <$>
        markedWithin resolve budget ⟨origin, after⟩])

theorem expandWithin_cut {line : String} {words : Words}
    (hline : Directive.ofLine? line = .ok (some words)) (n : Nat) (origin : Option Path)
    (before after : List String) :
    expandWithin resolve (n + 1) ⟨origin, before ++ line :: after⟩ =
      concat (parts resolve (n + 1) n origin before after words) := by
  have hafter := @expandMarked_renumber resolve (expandWithin resolve n) origin 1
    (before.length + 1) after
  rw [parts, expandWithin_succ, markedWithin, hafter, expandLines_append, expandLines_cons,
    expandLine_directive hline]
  simp only [concat_append, concat, map_eq_pure_bind, bind_assoc, pure_bind, List.append_nil,
    expandWithin_succ, Nat.add_assoc]

theorem concat_parts_nested {n m : Nat} (hnm : n ≤ m) {budget : Nat} {origin : Option Path}
    {before after : List String} {words : Words}
    (h : (concat (parts resolve budget n origin before after words)).result ≠ .error .tooDeep) :
    concat (parts resolve budget m origin before after words) =
      concat (parts resolve budget n origin before after words) := by
  refine concat_append_eq_of_ne (fun _ => rfl) (fun hrest => ?_) h
  refine concat_append_eq_of_ne (fun hunits => ?_) (fun _ => rfl) hrest
  exact concat_map_eq_of_ne (fun u _ hu => expandWithin_eq_of_le hnm hu) hunits

/-- A directive stands for its units: what is read is what comes before it, what the units give, and
what comes after it with the numbers of its own lines moved on. -/
theorem expand_splice {line : String} {words : Words}
    (hline : Directive.ofLine? line = .ok (some words)) (origin : Option Path)
    (before after : List String) :
    (∀ (resolve : Resolver) (n : Nat),
      Joins (expandWithin resolve (n + 1) ⟨origin, before ++ line :: after⟩)
        (parts resolve (n + 1) n origin before after words)) ∧
    ∀ (t : FileTree) (fetch : Remote.Fetcher),
      ((expand t fetch origin (before ++ line :: after)).result ≠ .error .tooDeep →
        Joins (expand t fetch origin (before ++ line :: after))
          (parts (Include.parse t fetch) deepest deepest origin before after words)) ∧
      (fun ms : List (Line × Bool) => ms.map Prod.fst) <$>
          markedWithin (Include.parse t fetch) deepest ⟨origin, after⟩ =
        expand t fetch origin after := by
  have hcut (resolve : Resolver) (n : Nat) :
      expandWithin resolve (n + 1) ⟨origin, before ++ line :: after⟩ =
        concat (parts resolve (n + 1) n origin before after words) :=
    expandWithin_cut hline n origin before after
  constructor
  · intro resolve n
    rw [hcut resolve n]
    exact joins_concat _
  · intro t fetch
    have hwhole : expand t fetch origin (before ++ line :: after) = _ :=
      hcut (Include.parse t fetch) (deepest - 1)
    refine ⟨?_, expandMarked_lines origin 1 after⟩
    intro hdeep
    rw [hwhole] at hdeep ⊢
    rw [← concat_parts_nested (Nat.sub_le deepest 1) hdeep]
    exact joins_concat _

theorem expand_documents :
    (expand noFiles (Remote.fetch documents .none) none ["p", "!include https://h/a", "q"]).result =
      .ok [⟨none, 1, "p"⟩, ⟨none, 1, "x"⟩, ⟨none, 3, "q"⟩] := by
  have hp : Directive.ofLine? "p" = .ok none := rfl
  have hq : Directive.ofLine? "q" = .ok none := rfl
  have hx : Directive.ofLine? "x" = .ok none := rfl
  have hfound : (documentUnits none ⟨["!include", "https://h/a"]⟩).units = [⟨none, ["x"]⟩] :=
    Include.units_parse_remote (Remote.plain_fetch _ _) rfl rfl fetch_a none
  have hresolved : (Include.resolve noFiles (Remote.fetch documents .none) none
      "https://h/a").result = .ok () := Include.result_resolve_remote rfl fetch_a none
  have hunits : (concat ([⟨none, ["x"]⟩].map (expandWithin documentUnits 899))).result =
      .ok [⟨none, 1, "x"⟩] := by
    rw [List.map_cons, List.map_nil, concat_singleton]
    exact result_expandLines_own hx none 1
  have hbefore := congrArg result (@expandLine_own documentUnits (expandWithin documentUnits 899)
    _ hp none 1)
  exact result_expandLines_cons hbefore
    (result_expandLines_cons (result_expandLine line_a hresolved hfound hunits 2)
      (result_expandLines_own hq none 3))

theorem expand_splice_documents :
    (expand noFiles (Remote.fetch documents .none) none ["p", "!include https://h/a", "q"]).result =
      .ok [⟨none, 1, "p"⟩, ⟨none, 1, "x"⟩, ⟨none, 3, "q"⟩] ∧
    Joins (expand noFiles (Remote.fetch documents .none) none ["p", "!include https://h/a", "q"])
      (parts documentUnits deepest deepest none ["p"] ["q"] ⟨["!include", "https://h/a"]⟩) := by
  refine ⟨expand_documents, ?_⟩
  refine ((expand_splice line_a none ["p"] ["q"]).2 noFiles (Remote.fetch documents .none)).1 ?_
  intro hdeep
  have h := expand_documents.symm.trans hdeep
  cases h

end Splice.Reader
