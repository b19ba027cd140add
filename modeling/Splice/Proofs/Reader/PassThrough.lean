import Splice.Proofs.Reader.Termination
import Splice.Proofs.Text.Lowering
import Splice.Proofs.Words.Runs

namespace Splice.Directive

/-- What a line begins with, up to the first character that separates words. -/
def opening (line : String) : List Char :=
  (Text.trim line.toList).takeWhile (!Words.isSeparator ·)

def remainder (line : String) : List Char :=
  (Text.trim line.toList).dropWhile (!Words.isSeparator ·)

/-- The line is empty, or begins with a word that has neither quotes nor backslashes and is not the
keyword. -/
def Ordinary (line : String) : Prop :=
  Text.trim line.toList = [] ∨
    ((∀ c ∈ opening line, c ≠ '\'' ∧ c ≠ '"' ∧ c ≠ '\\') ∧ Text.lower (opening line) ≠ keyword)

/-- The line begins like the keyword, and what follows its first word cannot be split into words. -/
def Misread (line : String) : Prop :=
  keyword <+: Text.lower (opening line) ∧ ∃ e, Words.split (remainder line) = .error e

variable {line : String}

theorem opening_append_remainder (line : String) :
    opening line ++ remainder line = Text.trim line.toList :=
  List.takeWhile_append_dropWhile

theorem isSeparator_of_head_remainder :
    ∀ c ∈ (remainder line).head?, Words.isSeparator c = true := by
  intro c hc
  have h := List.head?_dropWhile_not (!Words.isSeparator ·) (Text.trim line.toList)
  rw [show ((Text.trim line.toList).dropWhile _).head? = some c from hc] at h
  simpa using h

theorem prefix_trim_iff :
    keyword <+: Text.lower (Text.trim line.toList) ↔ keyword <+: Text.lower (opening line) := by
  rw [← opening_append_remainder]
  exact Text.prefix_lower_append_iff rfl isSeparator_of_head_remainder

theorem ordinary_of_all (hbare : (opening line).all Words.isBare = true)
    (hne : Text.lower (opening line) ≠ keyword) : Ordinary line := by
  refine .inr ⟨?_, hne⟩
  intro c hc
  have h := List.all_eq_true.mp hbare c hc
  simp only [Words.isBare, Bool.and_eq_true, decide_eq_true_eq] at h
  exact ⟨h.1.1.2, h.1.2, h.2⟩

theorem Ordinary.isBare (h : Ordinary line) : ∀ c ∈ opening line, Words.isBare c = true := by
  intro c hc
  have hseparates : (!Words.isSeparator c) = true := List.all_eq_true.mp List.all_takeWhile c hc
  rcases h with hempty | ⟨hplain, -⟩
  · simp [opening, hempty] at hc
  · simp [Words.isBare, hseparates, hplain c hc]

theorem Ordinary.lower_ne (h : Ordinary line) : Text.lower (opening line) ≠ keyword := by
  rcases h with hempty | ⟨-, hne⟩
  · rw [opening, hempty]
    decide
  · exact hne

theorem Ordinary.split_eq (h : Ordinary line) (hopening : opening line ≠ []) :
    Words.split (Text.trim line.toList) = (opening line :: ·) <$> Words.split (remainder line) := by
  rw [← opening_append_remainder]
  exact Words.split_append hopening h.isBare isSeparator_of_head_remainder

theorem Ordinary.ofLine?_eq (h : Ordinary line) :
    (∀ e, keyword <+: Text.lower (opening line) → Words.split (remainder line) = .error e →
      ofLine? line = .error (.unsplittable (String.ofList (Text.trim line.toList)) e)) ∧
    (¬ Misread line → ofLine? line = .ok none) := by
  by_cases hbegins : keyword <+: Text.lower (opening line)
  · have hopening : opening line ≠ [] := by
      rintro hnil
      rw [hnil] at hbegins
      exact absurd hbegins (by decide)
    have htrim : keyword.isPrefixOf (Text.lower (Text.trim line.toList)) = true :=
      List.isPrefixOf_iff_prefix.mpr (prefix_trim_iff.mpr hbegins)
    have hsplit := h.split_eq hopening
    cases hrest : Words.split (remainder line) with
    | error d =>
        rw [hrest] at hsplit
        refine ⟨?_, fun hread => absurd ⟨hbegins, d, hrest⟩ hread⟩
        rintro e - he
        cases he
        simp only [ofLine?, htrim, if_true, hsplit]
        rfl
    | ok words =>
        rw [hrest] at hsplit
        refine ⟨fun _ _ he => (by cases he), fun _ => ?_⟩
        simp only [ofLine?, htrim, if_true, hsplit]
        exact congrArg Except.ok (if_neg h.lower_ne)
  · have htrim : keyword.isPrefixOf (Text.lower (Text.trim line.toList)) = false := by
      rw [Bool.eq_false_iff, ne_eq, List.isPrefixOf_iff_prefix, prefix_trim_iff]
      exact hbegins
    refine ⟨fun _ hprefix => absurd hprefix hbegins, fun _ => ?_⟩
    simp only [ofLine?, htrim]
    rfl

theorem Ordinary.ofLine?_ok_iff (h : Ordinary line) : ofLine? line = .ok none ↔ ¬ Misread line := by
  refine ⟨?_, h.ofLine?_eq.2⟩
  rintro hnone ⟨hbegins, e, he⟩
  rw [h.ofLine?_eq.1 e hbegins he] at hnone
  cases hnone

end Splice.Directive

namespace Splice.Reader

open Directive Outcome

variable {resolve : Resolver} {expand : SourceUnit → Outcome (List Line)}

/-- Lines as they stand in their source, the first with the given number. -/
def numbered (origin : Option Path) (number : Nat) (lines : List String) : List Line :=
  (lines.zipIdx number).map fun l => ⟨origin, l.2, l.1⟩

theorem expandLines_own (origin : Option Path) (number : Nat) {lines : List String}
    (h : ∀ text ∈ lines, ofLine? text = .ok none) :
    expandLines resolve expand origin number lines = pure (numbered origin number lines) := by
  induction lines generalizing number with
  | nil => rfl
  | cons text rest ih =>
      obtain ⟨htext, hrest⟩ := List.forall_mem_cons.mp h
      rw [expandLines_bind, expandLine_own htext, ih (number + 1) hrest, pure_bind, pure_bind]
      rfl

theorem expandLines_refused (origin : Option Path) (number : Nat) {lines : List String}
    (h : ∀ text ∈ lines, Ordinary text) {text : String} (htext : text ∈ lines)
    (hread : Misread text) : ∃ line why,
      (expandLines resolve expand origin number lines).result = .error (.unsplittable line why) := by
  induction lines generalizing number with
  | nil => cases htext
  | cons first rest ih =>
      obtain ⟨hfirst, hrest⟩ := List.forall_mem_cons.mp h
      rw [expandLines_cons]
      by_cases hmisread : Misread first
      · obtain ⟨hbegins, why, hwhy⟩ := hmisread
        rw [expandLine_invalid (hfirst.ofLine?_eq.1 why hbegins hwhy)]
        exact ⟨_, why, rfl⟩
      · have hmem : text ∈ rest := by
          rcases List.mem_cons.mp htext with rfl | hmem
          · exact absurd hread hmisread
          · exact hmem
        obtain ⟨line, why, hwhy⟩ := ih (number + 1) hrest hmem
        refine ⟨line, why, ?_⟩
        rw [expandLine_own (hfirst.ofLine?_eq.2 hmisread), concat, concat_singleton]
        exact result_bind_error_iff.mpr
          (.inr ⟨_, rfl, result_bind_error_iff.mpr (.inl hwhy)⟩)

/-- Ordinary lines come out as they are, under any current file and whatever files and documents
there are, unless one of them is misread. Such a line is refused although it is no directive. -/
theorem expand_ordinary {lines : List String} (h : ∀ text ∈ lines, Ordinary text) :
    (∀ text ∈ lines, ofLine? text = .ok none ↔ ¬ Misread text) ∧
    ∀ (t : FileTree) (fetch : Remote.Fetcher) (origin : Option Path),
      ((∀ text ∈ lines, ¬ Misread text) →
        Reader.expand t fetch origin lines = pure (numbered origin 1 lines)) ∧
      (∀ text ∈ lines, Misread text → ∃ line why,
        (Reader.expand t fetch origin lines).result = .error (.unsplittable line why)) := by
  refine ⟨fun text htext => (h text htext).ofLine?_ok_iff, fun t fetch origin => ⟨?_, ?_⟩⟩
  · intro hread
    exact expandLines_own origin 1 fun text htext => (h text htext).ofLine?_eq.2 (hread text htext)
  · intro text htext hread
    exact expandLines_refused origin 1 h htext hread

theorem ordinary_similar :
    ∀ text ∈ ["!includes x", "!identifiers it's", " "], Ordinary text := by
  simp only [List.forall_mem_cons]
  exact ⟨ordinary_of_all rfl (by decide), ordinary_of_all rfl (by decide), .inl rfl, by simp⟩

/-- The first line begins like the keyword and the second has an open quote, but none has both. -/
theorem expand_ordinary_similar :
    (∀ text ∈ ["!includes x", "!identifiers it's", " "], Ordinary text ∧ ¬ Misread text) ∧
    Reader.expand noFiles (Remote.direct documents) none
      ["!includes x", "!identifiers it's", " "] =
        pure [⟨none, 1, "!includes x"⟩, ⟨none, 2, "!identifiers it's"⟩, ⟨none, 3, " "⟩] := by
  obtain ⟨hiff, hexpand⟩ := expand_ordinary ordinary_similar
  have hread : ∀ text ∈ ["!includes x", "!identifiers it's", " "], ¬ Misread text := by
    simp only [List.forall_mem_cons] at hiff ⊢
    exact ⟨hiff.1.mp rfl, hiff.2.1.mp rfl, hiff.2.2.1.mp rfl, by simp⟩
  refine ⟨fun text htext => ⟨ordinary_similar text htext, hread text htext⟩, ?_⟩
  exact (hexpand noFiles (Remote.direct documents) none).1 hread

/-- A line with a first word that is not the keyword, and yet refused. -/
theorem expand_misread :
    Ordinary "!includes it's" ∧
    ofLine? "!includes it's" = .error (.unsplittable "!includes it's" .unclosedQuote) ∧
    (Reader.expand noFiles (Remote.direct documents) none ["!includes it's"]).result =
      .error (.unsplittable "!includes it's" .unclosedQuote) :=
  ⟨ordinary_of_all rfl (by decide), rfl, rfl⟩

end Splice.Reader
