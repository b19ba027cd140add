import Splice.Proofs.Outcome.Sequence
import Splice.Reader

namespace Splice.Reader

open Outcome

variable {resolve : Resolver} {expand : SourceUnit → Outcome (List Line)}

theorem expandUnits_eq_concat (us : List SourceUnit) :
    expandUnits expand us = concat (us.map expand) := by
  induction us with
  | nil => rfl
  | cons u us ih => rw [expandUnits, List.map_cons, concat, ih]

theorem registered_bind {α : Type} (x : Outcome Unit) (f : List SourceUnit → Outcome α) :
    x.registered >>= f = x >>= fun _ => f x.units := by
  rw [registered, bind_assoc]
  simp only [pure_bind]

theorem expandLine_own {text : String} (h : Directive.ofLine? text = .ok none)
    (origin : Option Path) (number : Nat) :
    expandLine resolve expand origin number text = pure [⟨origin, number, text⟩] := by
  rw [expandLine, spliceLine, h]
  rfl

theorem expandLine_directive {text : String} {words : Words}
    (h : Directive.ofLine? text = .ok (some words)) (origin : Option Path) (number : Nat) :
    expandLine resolve expand origin number text =
      resolve origin words >>= fun _ => concat ((resolve origin words).units.map expand) := by
  rw [expandLine, spliceLine, h, ← expandUnits_eq_concat]
  exact registered_bind _ _

theorem result_expandLine {text : String} {words : Words}
    (h : Directive.ofLine? text = .ok (some words)) {origin : Option Path}
    (hr : (resolve origin words).result = .ok ()) {us : List SourceUnit}
    (hus : (resolve origin words).units = us) {out : List Line}
    (hout : (concat (us.map expand)).result = .ok out) (number : Nat) :
    (expandLine resolve expand origin number text).result = .ok out := by
  rw [expandLine_directive h, hus]
  exact result_bind_ok_iff.mpr ⟨(), hr, hout⟩

theorem expandLine_invalid {text : String} {e : Fault} (h : Directive.ofLine? text = .error e)
    (origin : Option Path) (number : Nat) :
    expandLine resolve expand origin number text = .fail e := by
  rw [expandLine, spliceLine, h]
  rfl

theorem ofLine?_error {text : String} {e : Fault} (h : Directive.ofLine? text = .error e) :
    ∃ line why, e = .unsplittable line why := by
  unfold Directive.ofLine? at h
  dsimp only at h
  split at h
  · split at h
    · exact ⟨_, _, (Except.error.inj h).symm⟩
    · cases h
    · cases h
  · cases h

theorem expandLines_bind (origin : Option Path) (number : Nat) (text : String)
    (rest : List String) :
    expandLines resolve expand origin number (text :: rest) = do
      return (← expandLine resolve expand origin number text) ++
        (← expandLines resolve expand origin (number + 1) rest) := rfl

theorem expandWithin_succ (budget : Nat) (u : SourceUnit) :
    expandWithin resolve (budget + 1) u =
      expandLines resolve (expandWithin resolve budget) u.file 1 u.lines := rfl

theorem expandFile_bind (t : FileTree) (fetch : Remote.Fetcher) (p : Path) :
    expandFile t fetch p =
      liftM (Include.readLines t p) >>= fun lines => Reader.expand t fetch (some p) lines := by
  rw [expandFile, spliceFile, pure_bind]
  rfl

theorem expandLines_cons (origin : Option Path) (number : Nat) (text : String)
    (rest : List String) :
    expandLines resolve expand origin number (text :: rest) =
      concat [expandLine resolve expand origin number text,
        expandLines resolve expand origin (number + 1) rest] := by
  rw [expandLines_bind, concat, concat_singleton]

theorem result_expandLines_cons {origin : Option Path} {number : Nat} {text : String}
    {rest : List String} {first others : List Line}
    (hfirst : (expandLine resolve expand origin number text).result = .ok first)
    (hothers : (expandLines resolve expand origin (number + 1) rest).result = .ok others) :
    (expandLines resolve expand origin number (text :: rest)).result = .ok (first ++ others) := by
  rw [expandLines_bind]
  exact result_bind_ok_iff.mpr ⟨first, hfirst, result_bind_ok_iff.mpr ⟨others, hothers, rfl⟩⟩

theorem result_expandLines_own {text : String} (h : Directive.ofLine? text = .ok none)
    (origin : Option Path) (number : Nat) :
    (expandLines resolve expand origin number [text]).result = .ok [⟨origin, number, text⟩] :=
  result_expandLines_cons (congrArg result (expandLine_own h origin number)) rfl

theorem expandLines_append (origin : Option Path) (number : Nat) (before after : List String) :
    expandLines resolve expand origin number (before ++ after) =
      concat [expandLines resolve expand origin number before,
        expandLines resolve expand origin (number + before.length) after] := by
  induction before generalizing number with
  | nil =>
      have hnil : expandLines resolve expand origin number [] = pure [] := rfl
      rw [hnil, concat, concat_singleton, pure_bind]
      exact (bind_pure _).symm
  | cons text before ih =>
      rw [List.cons_append, expandLines_bind, expandLines_bind, ih (number + 1), List.length_cons,
        Nat.add_assoc, Nat.add_comm 1 before.length]
      simp only [concat, pure_bind, bind_assoc, List.append_assoc, List.append_nil]

/-- The units that the directives of a unit register. -/
def Includes (resolve : Resolver) (u v : SourceUnit) : Prop :=
  ∃ text ∈ u.lines, ∃ words, Directive.ofLine? text = .ok (some words) ∧
    v ∈ (resolve u.file words).units

theorem expandUnits_error {us : List SourceUnit} {e : Fault}
    (h : (concat (us.map expand)).result = .error e) : ∃ u ∈ us, (expand u).result = .error e := by
  obtain ⟨before, part, after, hparts, _, hpart⟩ := (concat_error_iff _ e).mp h
  have hmem : part ∈ us.map expand := by rw [hparts]; simp
  obtain ⟨u, hu, rfl⟩ := List.mem_map.mp hmem
  exact ⟨u, hu, hpart⟩

/-- Every fault of an expansion is that of a line that is no proper directive, of the resolution of
a directive, or of the expansion of a unit that it finds. -/
theorem expandLines_error {origin : Option Path} {number : Nat} {lines : List String} {e : Fault}
    (h : (expandLines resolve expand origin number lines).result = .error e) :
    ∃ text ∈ lines, Directive.ofLine? text = .error e ∨
      ∃ words, Directive.ofLine? text = .ok (some words) ∧
        ((resolve origin words).result = .error e ∨
          ∃ v ∈ (resolve origin words).units, (expand v).result = .error e) := by
  induction lines generalizing number with
  | nil => cases h
  | cons text rest ih =>
      rw [expandLines_cons] at h
      obtain ⟨before, part, after, hparts, _, hpart⟩ := (concat_error_iff _ e).mp h
      have hmem : part ∈ [expandLine resolve expand origin number text,
          expandLines resolve expand origin (number + 1) rest] := by rw [hparts]; simp
      simp only [List.mem_cons, List.not_mem_nil, or_false] at hmem
      rcases hmem with rfl | rfl
      · refine ⟨text, List.mem_cons_self, ?_⟩
        cases hline : Directive.ofLine? text with
        | error d =>
            rw [expandLine_invalid hline] at hpart
            cases hpart
            exact .inl rfl
        | ok words? =>
            cases words? with
            | none => rw [expandLine_own hline] at hpart; cases hpart
            | some words =>
                rw [expandLine_directive hline] at hpart
                refine .inr ⟨words, rfl, ?_⟩
                rcases result_bind_error_iff.mp hpart with hr | ⟨_, _, hu⟩
                · exact .inl hr
                · exact .inr (expandUnits_error hu)
      · obtain ⟨text', htext, h'⟩ := ih hpart
        exact ⟨text', List.mem_cons_of_mem _ htext, h'⟩

/-- A directive of an expansion that succeeds has been resolved, the units that it found have been
expanded, and the trace tells of both. -/
structure Done (resolve : Resolver) (expand : SourceUnit → Outcome (List Line))
    (trace : List Event) (origin : Option Path) (words : Words) : Prop where
  resolved : (resolve origin words).result = .ok ()
  resolved_trace : (resolve origin words).trace <:+: trace
  expanded : ∀ v ∈ (resolve origin words).units, ∃ out, (expand v).result = .ok out
  expanded_trace : ∀ v ∈ (resolve origin words).units, (expand v).trace <:+: trace

theorem expandLines_done {origin : Option Path} {number : Nat} {lines : List String}
    {out : List Line} (h : (expandLines resolve expand origin number lines).result = .ok out)
    {text : String} (htext : text ∈ lines) {words : Words}
    (hline : Directive.ofLine? text = .ok (some words)) :
    Done resolve expand (expandLines resolve expand origin number lines).trace origin words := by
  induction lines generalizing number out with
  | nil => cases htext
  | cons first rest ih =>
      rw [expandLines_cons] at h ⊢
      rcases List.mem_cons.mp htext with rfl | htext
      · obtain ⟨given, hgiven⟩ := part_ok h List.mem_cons_self
        have hbody := @expandLine_directive resolve expand _ _ hline origin number
        have htrace := (congrArg trace hbody) ▸ part_trace h List.mem_cons_self
        rw [hbody] at hgiven
        obtain ⟨⟨⟩, hr, hu⟩ := result_bind_ok_iff.mp hgiven
        refine ⟨hr, (trace_prefix_bind _ _).isInfix.trans htrace, fun v hv => ?_, fun v hv => ?_⟩
        · exact part_ok hu (List.mem_map_of_mem hv)
        · have hinfix := part_trace hu (List.mem_map_of_mem hv)
          exact hinfix.trans ((trace_suffix_bind hr _).isInfix.trans htrace)
      · have hlast : expandLines resolve expand origin (number + 1) rest ∈
            [expandLine resolve expand origin number first,
              expandLines resolve expand origin (number + 1) rest] := by simp
        obtain ⟨given, hgiven⟩ := part_ok h hlast
        have hinfix := part_trace h hlast
        have hd := ih hgiven htext
        exact ⟨hd.resolved, hd.resolved_trace.trans hinfix, hd.expanded,
          fun v hv => (hd.expanded_trace v hv).trans hinfix⟩

/-- A line that comes out stands in the source itself, with its number, or comes out of a unit that
one of the directives finds. -/
theorem mem_expandLines {origin : Option Path} {number : Nat} {lines : List String}
    {out : List Line} (h : (expandLines resolve expand origin number lines).result = .ok out)
    {line : Line} (hline : line ∈ out) :
    (∃ i, lines[i]? = some line.text ∧ line.origin = origin ∧ line.number = number + i) ∨
      ∃ text ∈ lines, ∃ words, Directive.ofLine? text = .ok (some words) ∧
        ∃ v ∈ (resolve origin words).units, ∃ given, (expand v).result = .ok given ∧
          line ∈ given := by
  induction lines generalizing number out with
  | nil => cases h; cases hline
  | cons first rest ih =>
      rw [expandLines_cons] at h
      obtain ⟨part, hpart, given, hgiven, hmem⟩ := mem_concat h hline
      simp only [List.mem_cons, List.not_mem_nil, or_false] at hpart
      rcases hpart with rfl | rfl
      · cases hfirst : Directive.ofLine? first with
        | error e => rw [expandLine_invalid hfirst] at hgiven; cases hgiven
        | ok words? =>
            cases words? with
            | none =>
                rw [expandLine_own hfirst] at hgiven
                cases hgiven
                obtain rfl := List.mem_singleton.mp hmem
                exact .inl ⟨0, rfl, rfl, rfl⟩
            | some words =>
                rw [expandLine_directive hfirst] at hgiven
                obtain ⟨_, _, hu⟩ := result_bind_ok_iff.mp hgiven
                obtain ⟨x, hx, given', hx', hmem'⟩ := mem_concat hu hmem
                obtain ⟨v, hv, rfl⟩ := List.mem_map.mp hx
                exact .inr ⟨first, List.mem_cons_self, words, hfirst, v, hv, given', hx', hmem'⟩
      · rcases ih hgiven hmem with ⟨i, hi, ho, hn⟩ | ⟨text, htext, hrest⟩
        · exact .inl ⟨i + 1, hi, ho, by omega⟩
        · exact .inr ⟨text, List.mem_cons_of_mem _ htext, hrest⟩

end Splice.Reader
