import Splice.Directive
import Splice.Proofs.Text.Lowering
import Splice.Proofs.Words.Runs

namespace Splice

namespace Text

variable {s gap : List Char} {c : Char} {p : Char → Bool}

theorem trimWhile_eq_self (hfirst : ∀ c ∈ s.head?, p c = false)
    (hlast : ∀ c ∈ s.getLast?, p c = false) : trimWhile p s = s := by
  have hdrop : ∀ u : List Char, (∀ c ∈ u.head?, p c = false) → u.dropWhile p = u := by
    intro u hu
    cases u with
    | nil => rfl
    | cons c u => exact List.dropWhile_cons_of_neg (by simp [hu c rfl])
  rw [trimWhile, hdrop s hfirst, hdrop, List.reverse_reverse]
  rw [List.head?_reverse]
  exact hlast

theorem trimWhile_append (hgap : ∀ d ∈ gap, p d = true) (hfirst : p c = false)
    (hlast : ∀ d ∈ (c :: s).getLast?, p d = false) : trimWhile p (c :: s ++ gap) = c :: s := by
  have hc : ¬p c = true := by rw [hfirst]; exact Bool.false_ne_true
  have hself := trimWhile_eq_self (by simpa using hfirst) hlast
  rw [trimWhile, List.dropWhile_cons_of_neg hc] at hself
  rw [trimWhile, List.cons_append, List.dropWhile_cons_of_neg hc, ← List.cons_append,
    List.reverse_append, List.dropWhile_append_of_pos (by simpa using hgap), hself]

theorem trimWhile_append_left (hgap : ∀ d ∈ gap, p d = true) (s : List Char) :
    trimWhile p (gap ++ s) = trimWhile p s := by
  rw [trimWhile, List.dropWhile_append_of_pos hgap, trimWhile]

end Text

namespace Words

variable {s w gap rest line : List Char} {ts : List (List Char)}

def encloseChar (c : Char) : List Char :=
  if c = '\'' then ['\'', '"', '\'', '"', '\''] else [c]

/-- A text as one word: in single quotes, which are left for each single quote of its own. -/
def enclose (s : List Char) : List Char := '\'' :: (s.flatMap encloseChar ++ ['\''])

def escapeDouble (c : Char) : List Char := if c = '"' ∨ c = '\\' then ['\\', c] else [c]

/-- A text as one word in double quotes, with a backslash before each double quote and backslash. -/
def encloseDouble (s : List Char) : List Char := '"' :: (s.flatMap escapeDouble ++ ['"'])

/-- How a word may be written. -/
inductive Spells : List Char → List Char → Prop
  | single (s : List Char) : Spells s (enclose s)
  | double (s : List Char) : Spells s (encloseDouble s)
  | bare {s : List Char} (hne : s ≠ []) (h : ∀ c ∈ s, isBare c = true) : Spells s s

/-- How a line of words may be written: with at least one blank between two of them. -/
inductive Written : List (List Char) → List Char → Prop
  | nil : Written [] []
  | last {s w : List Char} (word : Spells s w) : Written [s] w
  | cons {s w gap t line : List Char} {ts : List (List Char)} (word : Spells s w) (hne : gap ≠ [])
      (hgap : ∀ c ∈ gap, isSeparator c = true) (rest : Written (t :: ts) line) :
      Written (s :: t :: ts) (w ++ (gap ++ line))

theorem splitFrom_single_enclosed (hrest : ∀ c ∈ rest.head?, isSeparator c = true) (s : List Char) :
    splitFrom .single (s.flatMap encloseChar ++ '\'' :: rest) = (s :: ·) <$> split rest := by
  induction s with
  | nil => exact splitFrom_bare_append (List.forall_mem_nil _) hrest
  | cons c s ih =>
      rw [List.flatMap_cons, List.append_assoc, ← glue_cons, ← ih]
      by_cases hc : c = '\''
      · subst hc
        rfl
      · rw [encloseChar, if_neg hc, List.singleton_append, splitFrom, if_neg hc]

theorem split_enclose_append (hrest : ∀ c ∈ rest.head?, isSeparator c = true) (s : List Char) :
    split (enclose s ++ rest) = (s :: ·) <$> split rest := by
  rw [← splitFrom_single_enclosed hrest, enclose, List.cons_append, List.append_assoc]
  rfl

theorem splitFrom_double_enclosed (hrest : ∀ c ∈ rest.head?, isSeparator c = true) (s : List Char) :
    splitFrom .double (s.flatMap escapeDouble ++ '"' :: rest) = (s :: ·) <$> split rest := by
  induction s with
  | nil => exact splitFrom_bare_append (List.forall_mem_nil _) hrest
  | cons c s ih =>
      rw [List.flatMap_cons, List.append_assoc, ← glue_cons, ← ih]
      by_cases hc : c = '"' ∨ c = '\\'
      · rcases hc with rfl | rfl <;> rfl
      · obtain ⟨hquote, hslash⟩ := not_or.mp hc
        rw [escapeDouble, if_neg hc, List.singleton_append, splitFrom, if_neg hquote, if_neg hslash]

theorem split_encloseDouble_append (hrest : ∀ c ∈ rest.head?, isSeparator c = true)
    (s : List Char) : split (encloseDouble s ++ rest) = (s :: ·) <$> split rest := by
  rw [← splitFrom_double_enclosed hrest, encloseDouble, List.cons_append, List.append_assoc]
  rfl

theorem Spells.split_append (h : Spells s w) (hrest : ∀ c ∈ rest.head?, isSeparator c = true) :
    split (w ++ rest) = (s :: ·) <$> split rest := by
  cases h with
  | single => exact split_enclose_append hrest s
  | double => exact split_encloseDouble_append hrest s
  | bare hne h => exact Words.split_append hne h hrest

theorem split_gap (hgap : ∀ c ∈ gap, isSeparator c = true) (line : List Char) :
    split (gap ++ line) = split line := by
  induction gap with
  | nil => rfl
  | cons c gap ih =>
      obtain ⟨hc, hgap⟩ := List.forall_mem_cons.mp hgap
      rw [List.cons_append, ← ih hgap]
      simp [split, splitFrom, hc]

theorem isSeparator_head (hne : gap ≠ []) (hgap : ∀ c ∈ gap, isSeparator c = true)
    (line : List Char) : ∀ c ∈ (gap ++ line).head?, isSeparator c = true := by
  cases gap with
  | nil => exact absurd rfl hne
  | cons c gap => simpa using (List.forall_mem_cons.mp hgap).1

theorem Written.split_eq (h : Written ts line) : split line = .ok ts := by
  induction h with
  | nil => rfl
  | @last s w word =>
      have hend : ∀ c ∈ ([] : List Char).head?, isSeparator c = true := by simp
      have hsplit := word.split_append hend
      rwa [List.append_nil] at hsplit
  | @cons s w gap t line ts word hne hgap _ ih =>
      rw [word.split_append (isSeparator_head hne hgap line), split_gap hgap, ih]
      rfl

end Words

namespace Directive

variable {kw gap quoted before after : List Char}

theorem ofLine?_keyword {line : String} {kw rest : List Char} {ws : List (List Char)}
    (htrim : Text.trim line.toList = kw ++ rest) (hkw : Text.lower kw = keyword)
    (hbare : ∀ c ∈ kw, Words.isBare c = true)
    (hrest : ∀ c ∈ rest.head?, Words.isSeparator c = true) (hwords : Words.split rest = .ok ws) :
    ofLine? line = .ok (some ⟨(kw :: ws).map String.ofList⟩) := by
  have hne : kw ≠ [] := by
    rintro rfl
    exact absurd hkw (by decide)
  have hbegins : keyword.isPrefixOf (Text.lower (kw ++ rest)) = true := by
    rw [List.isPrefixOf_iff_prefix, Text.prefix_lower_append_iff rfl hrest]
    exact hkw.symm ▸ List.prefix_rfl
  have hsplit : Words.split (kw ++ rest) = .ok (kw :: ws) := by
    rw [Words.split_append hne hbare hrest, hwords]
    rfl
  simp only [ofLine?, htrim, hbegins, if_true, hsplit, hkw]

/-- The keyword with each letter in either case. -/
def IsKeyword (kw : List Char) : Prop := kw.map Char.toLower = keyword

theorem ascii_of_mem_keyword {c : Char} (h : c ∈ keyword) : c.toNat < 128 := by
  have hall : keyword.all (fun c => c.toNat < 128) = true := by decide
  simpa using List.all_eq_true.mp hall c h

theorem IsKeyword.plain {c : Char} (h : IsKeyword kw) (hc : c ∈ kw) :
    Words.isBare c = true ∧ Text.isBlank c = false := by
  have hletter : c.toLower ∈ keyword := h ▸ List.mem_map_of_mem hc
  refine Text.of_ascii
    (P := fun c => c.toLower ∈ keyword → Words.isBare c = true ∧ Text.isBlank c = false)
    (by decide +kernel) (Text.toNat_lt_of_toLower (ascii_of_mem_keyword hletter)) hletter

theorem IsKeyword.lower_eq (h : IsKeyword kw) : Text.lower kw = keyword := by
  rw [← h]
  apply Text.lower_of_toLower
  rw [h]
  exact fun c hc => ascii_of_mem_keyword hc

theorem spells_of_quoted {target : List Char}
    (h : quoted ∈ [Words.enclose target, Words.encloseDouble target]) :
    Words.Spells target quoted := by
  simp only [List.mem_cons, List.not_mem_nil, or_false] at h
  rcases h with rfl | rfl
  · exact .single target
  · exact .double target

theorem isBlank_last {target : List Char}
    (h : quoted ∈ [Words.enclose target, Words.encloseDouble target]) :
    ∃ body q, quoted = body ++ [q] ∧ Text.isBlank q = false := by
  simp only [List.mem_cons, List.not_mem_nil, or_false] at h
  rcases h with rfl | rfl
  · exact ⟨_, '\'', (List.cons_append ..).symm, rfl⟩
  · exact ⟨_, '"', (List.cons_append ..).symm, rfl⟩

theorem trim_spelled {target : List Char} (hblank : ∀ c ∈ before ++ after, Text.isBlank c = true)
    (hkw : IsKeyword kw) (hquoted : quoted ∈ [Words.enclose target, Words.encloseDouble target])
    (gap : List Char) :
    Text.trim (before ++ (kw ++ (gap ++ quoted) ++ after)) = kw ++ (gap ++ quoted) := by
  obtain ⟨hbefore, hafter⟩ := List.forall_mem_append.mp hblank
  obtain ⟨body, q, rfl, hq⟩ := isBlank_last hquoted
  rw [Text.trim, Text.trimWhile_append_left hbefore]
  cases kw with
  | nil => cases hkw
  | cons c kw =>
      apply Text.trimWhile_append hafter (hkw.plain List.mem_cons_self).2
      intro d hd
      have hlast : (c :: (kw ++ (gap ++ (body ++ [q])))).getLast? = some q := by
        rw [← List.append_assoc gap, ← List.append_assoc kw, ← List.cons_append,
          List.getLast?_concat]
      cases hlast.symm.trans hd
      exact hq

/-- The keyword in any case and a quoted target make a directive, whatever blanks there are around
them. -/
theorem ofLine?_spelled (target : List Char)
    (hblank : ∀ c ∈ before ++ after, Text.isBlank c = true) (hkw : IsKeyword kw)
    (hne : gap ≠ []) (hgap : ∀ c ∈ gap, c = ' ' ∨ c = '\t')
    (hquoted : quoted ∈ [Words.enclose target, Words.encloseDouble target]) :
    ofLine? (String.ofList (before ++ (kw ++ (gap ++ quoted) ++ after))) =
      .ok (some ⟨[String.ofList kw, String.ofList target]⟩) := by
  have hsep : ∀ c ∈ gap, Words.isSeparator c = true := by
    intro c hc
    rcases hgap c hc with rfl | rfl <;> rfl
  have hwords : Words.split (gap ++ quoted) = .ok [target] := by
    rw [Words.split_gap hsep]
    exact (Words.Written.last (spells_of_quoted hquoted)).split_eq
  apply ofLine?_keyword _ hkw.lower_eq (fun c hc => (hkw.plain hc).1)
    (Words.isSeparator_head hne hsep quoted) hwords
  rw [String.toList_ofList, trim_spelled hblank hkw hquoted]

/-- The words of a line are those that it is written from, however each is quoted. So a directive is
read with its target, in any case of the keyword and with any blanks around it. -/
theorem ofLine_written :
    (∀ (words : List String) (line : String),
      Words.Written (words.map String.toList) line.toList → Words.ofLine line = .ok ⟨words⟩) ∧
    ∀ (target : String) (before kw gap quoted after : List Char),
      (∀ c ∈ before ++ after, Text.isBlank c = true) → kw.map Char.toLower = keyword →
      gap ≠ [] → (∀ c ∈ gap, c = ' ' ∨ c = '\t') →
      quoted ∈ [Words.enclose target.toList, Words.encloseDouble target.toList] →
      ∃ words, ofLine? (String.ofList (before ++ (kw ++ (gap ++ quoted) ++ after))) =
          .ok (some words) ∧ words.size = 2 ∧ words.get? 1 = some target := by
  refine ⟨?_, ?_⟩
  · intro words line h
    rw [Words.ofLine, h.split_eq]
    show Except.ok _ = _
    simp
  · intro target before kw gap quoted after hblank hkw hne hgap hquoted
    refine ⟨_, ofLine?_spelled target.toList hblank hkw hne hgap hquoted, rfl, ?_⟩
    rw [String.ofList_toList]
    rfl

/-- An empty word, words in each kind of quotes that hold the other kind, and a bare one. -/
theorem ofLine_written_mixed :
    Words.Written (["", "a'b\"", "it's", "plain"].map String.toList)
      "''  \"a'b\\\"\"\t'it'\"'\"'s'\r\nplain".toList ∧
    Words.ofLine "''  \"a'b\\\"\"\t'it'\"'\"'s'\r\nplain" =
      .ok ⟨["", "a'b\"", "it's", "plain"]⟩ ∧
    ∃ words, ofLine? "\u2003!InCLUDE \t\"it's \\\"x\\\"\"\r\n" = .ok (some words) ∧
      words.size = 2 ∧ words.get? 1 = some "it's \"x\"" := by
  have hwritten : Words.Written (["", "a'b\"", "it's", "plain"].map String.toList)
      "''  \"a'b\\\"\"\t'it'\"'\"'s'\r\nplain".toList := by
    refine .cons (.single _) (List.cons_ne_nil ' ' [' ']) (List.all_eq_true.mp rfl) ?_
    refine .cons (.double _) (List.cons_ne_nil '\t' []) (List.all_eq_true.mp rfl) ?_
    refine .cons (.single _) (List.cons_ne_nil '\r' ['\n']) (List.all_eq_true.mp rfl) ?_
    exact .last (.bare (by decide) (List.all_eq_true.mp rfl))
  refine ⟨hwritten, ofLine_written.1 _ _ hwritten, ?_⟩
  exact ofLine_written.2 "it's \"x\"" ['\u2003'] "!InCLUDE".toList " \t".toList
    (Words.encloseDouble "it's \"x\"".toList) "\r\n".toList (List.all_eq_true.mp rfl) rfl
    (List.cons_ne_nil ' ' ['\t']) (by simp) (by simp)

end Directive

end Splice
