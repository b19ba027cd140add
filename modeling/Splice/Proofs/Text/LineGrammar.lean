import Mathlib.Data.List.Chain
import Mathlib.Logic.ExistsUnique
import Splice.Proofs.Text.LineEnds
import Splice.Proofs.Text.Pieces

namespace Splice.Text

inductive LineEnd
  | lf
  | cr
  | crlf
  deriving DecidableEq, Repr

def LineEnd.text : LineEnd → List Char
  | .lf => ['\n']
  | .cr => ['\r']
  | .crlf => ['\r', '\n']

def IsLine (s : List Char) : Prop := ∀ c ∈ s, c ≠ '\r' ∧ c ≠ '\n'

/-- Lines with their ends, and what follows the last end. -/
abbrev Layout := List (List Char × LineEnd) × List Char

namespace Layout

def text (d : Layout) : List Char := d.1.flatMap (fun l => l.1 ++ l.2.text) ++ d.2

/-- The lines, of which the last may have no end. -/
def lines (d : Layout) : List (List Char) := d.1.map (·.1) ++ if d.2 = [] then [] else [d.2]

/-- A CR ends a line only where no LF follows it. -/
def Greedy (d : Layout) : Prop :=
  ∀ before l after, d.1 = before ++ (l, .cr) :: after → (text (after, d.2)).head? ≠ some '\n'

/-- The text is written in this way. -/
structure Of (s : List Char) (d : Layout) : Prop where
  text_eq : d.text = s
  isLine : ∀ l ∈ d.1, IsLine l.1
  isLine_rest : IsLine d.2
  greedy : d.Greedy

variable {s l r : List Char} {e : LineEnd} {ls : List (List Char × LineEnd)} {d : Layout}

@[simp] theorem text_nil (r : List Char) : text ([], r) = r := rfl

@[simp] theorem text_cons (l : List Char) (e : LineEnd) (ls : List (List Char × LineEnd))
    (r : List Char) : text ((l, e) :: ls, r) = l ++ (e.text ++ text (ls, r)) := by
  simp [text]

@[simp] theorem lines_cons (l : List Char) (e : LineEnd) (ls : List (List Char × LineEnd))
    (r : List Char) : lines ((l, e) :: ls, r) = l :: lines (ls, r) := rfl

theorem greedy_nil (r : List Char) : Greedy ([], r) := by
  simp [Greedy]

theorem greedy_cons_iff : Greedy ((l, e) :: ls, r) ↔
    (e = .cr → (text (ls, r)).head? ≠ some '\n') ∧ Greedy (ls, r) := by
  constructor
  · intro h
    refine ⟨?_, ?_⟩
    · rintro rfl
      exact h [] l ls rfl
    · intro before m after hls
      exact h ((l, e) :: before) m after (congrArg ((l, e) :: ·) hls)
  · rintro ⟨hfirst, h⟩ before m after hls
    cases before with
    | nil =>
        obtain ⟨hl, rfl⟩ := List.cons.inj hls
        exact hfirst (congrArg Prod.snd hl)
    | cons _ before => exact h before m after (List.cons.inj hls).2

theorem of_nil_iff : Of s ([], r) ↔ r = s ∧ IsLine r := by
  constructor
  · intro h
    exact ⟨h.text_eq, h.isLine_rest⟩
  · rintro ⟨hs, hr⟩
    exact ⟨hs, by simp, hr, greedy_nil r⟩

theorem of_cons_iff : Of s ((l, e) :: ls, r) ↔
    ∃ s', s = l ++ (e.text ++ s') ∧ IsLine l ∧ (e = .cr → s'.head? ≠ some '\n') ∧ Of s' (ls, r) := by
  constructor
  · rintro ⟨rfl, hlines, hrest, hgreedy⟩
    obtain ⟨hl, hls⟩ := List.forall_mem_cons.mp hlines
    obtain ⟨hfirst, hgreedy⟩ := greedy_cons_iff.mp hgreedy
    exact ⟨text (ls, r), text_cons l e ls r, hl, hfirst, rfl, hls, hrest, hgreedy⟩
  · rintro ⟨s', rfl, hl, hfirst, rfl, hls, hrest, hgreedy⟩
    exact ⟨text_cons l e ls r, List.forall_mem_cons.mpr ⟨hl, hls⟩, hrest,
      greedy_cons_iff.mpr ⟨hfirst, hgreedy⟩⟩

/-! ### The lines that are read -/

theorem fileLines_of_isLine (h : IsLine r) : fileLines r = if r = [] then [] else [r] := by
  by_cases hr : r = []
  · simp [hr, fileLines]
  · have hended : ([] : List Char) ∈ [[], ['\n']] := List.mem_cons_self
    simpa [hr] using fileLines_ended hr h hended

theorem fileLines_line (hl : IsLine l) (he : e = .cr → s.head? ≠ some '\n') :
    fileLines (l ++ (e.text ++ s)) = l :: fileLines s := by
  induction l with
  | nil =>
      cases e with
      | lf => simp [LineEnd.text, fileLines]
      | crlf => simp [LineEnd.text, fileLines]
      | cr =>
          cases s with
          | nil => rfl
          | cons c s =>
              have hc : c ≠ '\n' := by simpa using he rfl
              simp [LineEnd.text, fileLines, hc]
  | cons c l ih =>
      obtain ⟨⟨hreturn, hfeed⟩, hl⟩ := List.forall_mem_cons.mp hl
      rw [List.cons_append, fileLines_cons hreturn hfeed, ih hl, glue]

theorem Of.fileLines_eq (h : Of s d) : fileLines s = d.lines := by
  obtain ⟨ls, r⟩ := d
  induction ls generalizing s with
  | nil =>
      obtain ⟨rfl, hr⟩ := of_nil_iff.mp h
      exact fileLines_of_isLine hr
  | cons l ls ih =>
      obtain ⟨s', rfl, hl, hfirst, h⟩ := of_cons_iff.mp h
      rw [fileLines_line hl hfirst, ih h, lines_cons]

/-! ### Every text is written in one way only -/

theorem Of.cons {c : Char} (hreturn : c ≠ '\r') (hfeed : c ≠ '\n') (h : Of s d) :
    ∃ d', Of (c :: s) d' := by
  obtain ⟨ls, r⟩ := d
  have hextend {l : List Char} (hl : IsLine l) : IsLine (c :: l) :=
    List.forall_mem_cons.mpr ⟨⟨hreturn, hfeed⟩, hl⟩
  cases ls with
  | nil =>
      obtain ⟨rfl, hr⟩ := of_nil_iff.mp h
      exact ⟨([], c :: r), of_nil_iff.mpr ⟨rfl, hextend hr⟩⟩
  | cons l ls =>
      obtain ⟨s', rfl, hl, hfirst, h⟩ := of_cons_iff.mp h
      exact ⟨((c :: l.1, l.2) :: ls, r), of_cons_iff.mpr ⟨s', rfl, hextend hl, hfirst, h⟩⟩

theorem exists_of (s : List Char) : ∃ d, Of s d := by
  have hempty : IsLine [] := by simp [IsLine]
  have hended {e : LineEnd} {s : List Char} (he : e = .cr → s.head? ≠ some '\n')
      (h : ∃ d, Of s d) : ∃ d, Of (e.text ++ s) d := by
    obtain ⟨⟨ls, r⟩, h⟩ := h
    exact ⟨(([], e) :: ls, r), of_cons_iff.mpr ⟨s, rfl, hempty, he, h⟩⟩
  fun_induction fileLines s with
  | case1 => exact ⟨([], []), of_nil_iff.mpr ⟨rfl, hempty⟩⟩
  | case2 s ih => exact hended (e := .crlf) (by simp) ih
  | case3 s hs ih =>
      refine hended (e := .cr) (fun _ hhead => ?_) ih
      obtain ⟨s', rfl⟩ := List.head?_eq_some_iff.mp hhead
      exact hs s' rfl
  | case4 s ih => exact hended (e := .lf) (by simp) ih
  | case5 c s _ hreturn hfeed ih =>
      obtain ⟨d, h⟩ := ih
      exact h.cons hreturn hfeed

theorem takeWhile_line (hl : IsLine l) (e : LineEnd) (s : List Char) :
    (l ++ (e.text ++ s)).takeWhile (fun c => c ≠ '\r' && c ≠ '\n') = l := by
  rw [List.takeWhile_append_of_pos (by simpa [IsLine] using hl)]
  cases e <;> simp [LineEnd.text]

theorem line_inj {l' s' : List Char} {e' : LineEnd} (hl : IsLine l) (hl' : IsLine l')
    (he : e = .cr → s.head? ≠ some '\n') (he' : e' = .cr → s'.head? ≠ some '\n')
    (h : l ++ (e.text ++ s) = l' ++ (e'.text ++ s')) : l = l' ∧ e = e' ∧ s = s' := by
  have hline : l = l' := by
    rw [← takeWhile_line hl e s, h, takeWhile_line hl' e' s']
  subst hline
  have hrest := List.append_cancel_left h
  cases e <;> cases e' <;> grind [LineEnd.text]

theorem not_isLine_append (e : LineEnd) (l s : List Char) : ¬ IsLine (l ++ (e.text ++ s)) := by
  intro h
  cases e with
  | lf => exact (h '\n' (by simp [LineEnd.text])).2 rfl
  | cr => exact (h '\r' (by simp [LineEnd.text])).1 rfl
  | crlf => exact (h '\r' (by simp [LineEnd.text])).1 rfl

theorem Of.unique {d' : Layout} (h : Of s d) (h' : Of s d') : d = d' := by
  obtain ⟨ls, r⟩ := d
  obtain ⟨ls', r'⟩ := d'
  induction ls generalizing s ls' with
  | nil =>
      obtain ⟨rfl, hr⟩ := of_nil_iff.mp h
      cases ls' with
      | nil => rw [(of_nil_iff.mp h').1]
      | cons l' ls' =>
          obtain ⟨s', rfl, -⟩ := of_cons_iff.mp h'
          exact absurd hr (not_isLine_append l'.2 l'.1 s')
  | cons l ls ih =>
      obtain ⟨t, rfl, hl, hfirst, h⟩ := of_cons_iff.mp h
      cases ls' with
      | nil =>
          obtain ⟨rfl, hr⟩ := of_nil_iff.mp h'
          exact absurd hr (not_isLine_append l.2 l.1 t)
      | cons l' ls' =>
          obtain ⟨t', ht, hl', hfirst', h'⟩ := of_cons_iff.mp h'
          obtain ⟨hline, hend, rfl⟩ := line_inj hl hl' hfirst hfirst' ht
          cases ih h ls' h'
          rw [Prod.ext hline hend]

theorem existsUnique_of (s : List Char) : ∃! d, Of s d := by
  obtain ⟨d, h⟩ := exists_of s
  exact ⟨d, h, fun _ h' => h'.unique h⟩

/-! ### Lines that are written down -/

/-- The first line does not end in a CR that the LF of an empty line would follow. -/
def Apart (l m : List Char × LineEnd) : Prop := ¬ (l.2 = .cr ∧ m = ([], .lf))

theorem head_text_ne_feed (hls : ∀ m ∈ ls, IsLine m.1) (h : ∀ m ∈ ls.head?, Apart (l, .cr) m) :
    (text (ls, [])).head? ≠ some '\n' := by
  cases ls with
  | nil => simp
  | cons m ls =>
      obtain ⟨m, e⟩ := m
      cases m with
      | nil =>
          have he : e ≠ .lf := by simpa [Apart] using h _ rfl
          cases e <;> simp_all [LineEnd.text]
      | cons c m =>
          have hc := hls (c :: m, e) List.mem_cons_self c List.mem_cons_self
          simpa using hc.2

theorem of_text (hls : ∀ l ∈ ls, IsLine l.1) (h : ls.IsChain Apart) :
    Of (text (ls, [])) (ls, []) := by
  induction ls with
  | nil => exact of_nil_iff.mpr ⟨rfl, by simp [IsLine]⟩
  | cons l ls ih =>
      obtain ⟨l, e⟩ := l
      obtain ⟨hl, hrest⟩ := List.forall_mem_cons.mp hls
      obtain ⟨hfirst, h⟩ := List.isChain_cons.mp h
      refine of_cons_iff.mpr ⟨_, text_cons l e ls [], hl, ?_, ih hrest h⟩
      rintro rfl
      exact head_text_ne_feed hrest hfirst

end Layout

/-! ### The same lines by rewriting the text -/

def joinReturns : List Char → List Char
  | [] => []
  | '\r' :: '\n' :: s => '\n' :: joinReturns s
  | c :: s => c :: joinReturns s

def feedForReturn (c : Char) : Char := if c = '\r' then '\n' else c

/-- Without the last piece if that is empty. -/
def dropLastEmpty (ps : List (List Char)) : List (List Char) :=
  if ps.getLast? = some [] then ps.dropLast else ps

/-- Every CR LF becomes LF, then every other CR; the text is cut at LF, and an empty piece at the end
is dropped. -/
def rewrittenLines (s : List Char) : List (List Char) :=
  if s = [] then [] else dropLastEmpty (cut '\n' ((joinReturns s).map feedForReturn))

theorem map_joinReturns (s : List Char) : (joinReturns s).map feedForReturn = unifyLineEnds s := by
  fun_induction unifyLineEnds s with
  | case1 => rfl
  | case2 s ih => rw [joinReturns, List.map_cons, ih]; rfl
  | case3 s hs ih =>
      rw [joinReturns, List.map_cons, ih]
      · rfl
      · exact fun s' _ => hs s'
  | case4 c s _ hreturn ih =>
      rw [joinReturns, List.map_cons, ih, feedForReturn, if_neg hreturn]
      exact fun _ h => absurd h hreturn

theorem not_mem_unifyLineEnds (s : List Char) : '\r' ∉ unifyLineEnds s := by
  fun_induction unifyLineEnds s with
  | case1 => simp
  | case2 s ih => simpa using ih
  | case3 s _ ih => simpa using ih
  | case4 c s _ hreturn ih => simpa [Ne.symm hreturn] using ih

theorem fileLines_of_no_return {s : List Char} (h : '\r' ∉ s) :
    fileLines s = dropLastEmpty (cut '\n' s) := by
  induction s with
  | nil => rfl
  | cons c s ih =>
      obtain ⟨hc, hs⟩ := not_or.mp (mt List.mem_cons.mpr h)
      obtain ⟨p, ps, hcut⟩ := List.exists_cons_of_ne_nil (cut_ne_nil '\n' s)
      rw [cut]
      by_cases hfeed : c = '\n'
      · subst hfeed
        rw [fileLines, ih hs, if_pos rfl, hcut]
        simp only [dropLastEmpty, List.getLast?_cons_cons, List.dropLast_cons_cons]
        split <;> rfl
      · rw [fileLines_cons (Ne.symm hc) hfeed, ih hs, if_neg hfeed, hcut, glue]
        cases ps with
        | nil => by_cases hp : p = [] <;> simp [dropLastEmpty, hp, glue]
        | cons q ps =>
            simp only [dropLastEmpty, List.getLast?_cons_cons, List.dropLast_cons_cons]
            split <;> rfl

theorem rewrittenLines_eq (s : List Char) : rewrittenLines s = fileLines s := by
  rw [rewrittenLines, map_joinReturns]
  split
  · rename_i hs
    rw [hs, fileLines]
  · rw [← fileLines_of_no_return (not_mem_unifyLineEnds s), fileLines_unifyLineEnds]

/-- A text is written in one way as lines with their ends and a rest without one, where CR LF is one
end; its lines are these and the rest, unless that is empty. So it does not matter whether the ends are
made the same before, and lines that are written down with any ends are read again. -/
theorem linesOfFile_grammar :
    (∀ text : String, (∃! d, Layout.Of text.toList d) ∧
      (∀ d, Layout.Of text.toList d → linesOfFile text = d.lines.map String.ofList) ∧
      linesOfFile text = (rewrittenLines text.toList).map String.ofList ∧
      linesOfFile (String.ofList (unifyLineEnds text.toList)) = linesOfFile text) ∧
    ∀ ls : List (List Char × LineEnd), (∀ l ∈ ls, IsLine l.1) → ls.IsChain Layout.Apart →
      linesOfFile (String.ofList (Layout.text (ls, []))) = ls.map fun l => String.ofList l.1 := by
  refine ⟨fun text => ⟨Layout.existsUnique_of _, ?_, ?_, ?_⟩, ?_⟩
  · intro d h
    rw [linesOfFile, h.fileLines_eq]
  · rw [linesOfFile, rewrittenLines_eq]
  · rw [linesOfFile_unifyLineEnds, String.ofList_toList]
  · intro ls hls h
    rw [linesOfFile, String.toList_ofList, (Layout.of_text hls h).fileLines_eq]
    simp [Layout.lines]

def mixed : Layout := ([(['a'], .cr), ([], .crlf), (['b'], .lf), ([], .lf)], ['c'])

/-- The second CR belongs to the LF behind it, and the two LFs enclose an empty line. -/
theorem linesOfFile_grammar_mixed :
    Layout.Of "a\r\r\nb\n\nc".toList mixed ∧
    linesOfFile "a\r\r\nb\n\nc" = ["a", "", "b", "", "c"] ∧
    mixed.1.IsChain Layout.Apart ∧
    linesOfFile (String.ofList (Layout.text (mixed.1, []))) = ["a", "", "b", ""] := by
  have hmixed : Layout.Of "a\r\r\nb\n\nc".toList mixed := by
    refine ⟨rfl, by simp [mixed, IsLine], by simp [mixed, IsLine], ?_⟩
    simp [mixed, Layout.greedy_cons_iff, Layout.greedy_nil, LineEnd.text]
  have hapart : mixed.1.IsChain Layout.Apart := by simp [mixed, Layout.Apart]
  exact ⟨hmixed, (linesOfFile_grammar.1 _).2.1 mixed hmixed, hapart,
    linesOfFile_grammar.2 mixed.1 hmixed.isLine hapart⟩

end Splice.Text
