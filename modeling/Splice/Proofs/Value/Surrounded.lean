import Mathlib.Data.List.TakeWhile
import Splice.Proofs.Value.Bracketed
import Splice.Proofs.Words.Spelled

namespace Splice

namespace Text

variable {a b s gap : List Char} {c : Char} {p : Char → Bool}

theorem trimWhile_append_right (hgap : ∀ d ∈ gap, p d = true) (s : List Char) :
    trimWhile p (s ++ gap) = trimWhile p s := by
  have hdrop : gap.dropWhile p = [] := List.dropWhile_eq_nil_iff.mpr hgap
  rw [trimWhile, trimWhile, List.dropWhile_append]
  split
  · rename_i hempty
    rw [hdrop, List.isEmpty_iff.mp hempty]
  · rw [List.reverse_append, List.dropWhile_append_of_pos (by simpa using hgap)]

theorem trim_surrounded (ha : ∀ c ∈ a, isBlank c = true) (hb : ∀ c ∈ b, isBlank c = true)
    (s : List Char) : trim (a ++ s ++ b) = trim s := by
  rw [trim, trimWhile_append_right hb, trimWhile_append_left ha, trim]

theorem exists_surrounded (p : Char → Bool) (s : List Char) :
    ∃ a b, (∀ c ∈ a, p c = true) ∧ (∀ c ∈ b, p c = true) ∧ s = a ++ trimWhile p s ++ b := by
  have hback := List.takeWhile_append_dropWhile (p := p) (l := (s.dropWhile p).reverse)
  refine ⟨s.takeWhile p, ((s.dropWhile p).reverse.takeWhile p).reverse,
    fun c hc => List.mem_takeWhile_imp hc,
    fun c hc => List.mem_takeWhile_imp (List.mem_reverse.mp hc), ?_⟩
  rw [trimWhile, List.append_assoc, ← List.reverse_append, hback, List.reverse_reverse,
    List.takeWhile_append_dropWhile]

theorem trim_trim (s : List Char) : trim (trim s) = trim s := by
  obtain ⟨a, b, ha, hb, hs⟩ := exists_surrounded isBlank s
  exact (trim_surrounded ha hb (trim s)).symm.trans (congrArg trim hs.symm)

theorem blanks_apart : blanks.all (fun r => zeros.all fun z => r.2 < z || z + 10 ≤ r.1) = true := by
  decide +kernel

theorem isDigit_of_isBlank (h : isBlank c = true) : isDigit c = false := by
  obtain ⟨r, hr, hle, hge⟩ := Ranges.holds_iff.mp h
  rw [← Bool.not_eq_true]
  intro hdigit
  obtain ⟨z, hz, hfirst, hlast⟩ := isDigit_iff.mp hdigit
  have hapart := List.all_eq_true.mp (List.all_eq_true.mp blanks_apart r hr) z hz
  simp only [Bool.or_eq_true, decide_eq_true_eq] at hapart
  omega

theorem filter_isDigit_surrounded (ha : ∀ c ∈ a, isBlank c = true) (hb : ∀ c ∈ b, isBlank c = true)
    (s : List Char) : (a ++ s ++ b).filter isDigit = s.filter isDigit := by
  have hnone {gap : List Char} (hgap : ∀ c ∈ gap, isBlank c = true) : gap.filter isDigit = [] := by
    rw [List.filter_eq_nil_iff]
    intro c hc
    rw [isDigit_of_isBlank (hgap c hc)]
    exact Bool.false_ne_true
  rw [List.filter_append, List.filter_append, hnone ha, hnone hb, List.nil_append, List.append_nil]

end Text

namespace Coerce

variable {a b v text text' : String} {s : List Char} {i : Int}

/-! ### Whole numbers -/

/-- What a text gives that is read as a whole number. -/
def counted (text : List Char) (i : Int) : Except Fault Value :=
  match refusal? text with
  | some e => .error e
  | none => .ok (.int i)

def Separated (s : List Char) : Prop := ∃ c ∈ s, Text.isSeparator c = true

def TooLong (s : List Char) : Prop := Fault.mostDigits < (s.filter Text.isDigit).length

theorem any_isSeparator_iff : s.any Text.isSeparator = true ↔ Separated s := List.any_eq_true

theorem counted_of_plain (h : ¬Separated s) (hfits : ¬TooLong s) (i : Int) :
    counted s i = .ok (.int i) := by
  have hfront : ¬(s.takeWhile Text.isBlank).any Text.isSeparator = true := by
    rw [any_isSeparator_iff]
    rintro ⟨c, hc, hseparator⟩
    exact h ⟨c, (List.takeWhile_prefix _).subset hc, hseparator⟩
  unfold TooLong at hfits
  rw [counted, refusal?, if_neg hfront, if_neg hfits, if_neg (mt any_isSeparator_iff.mp h)]

theorem counted_of_separated (h : Separated s) (hfits : ¬TooLong s) (i : Int) :
    counted s i = .error (.notInteger 10 (String.ofList s)) := by
  unfold TooLong at hfits
  rw [counted, refusal?, if_neg hfits, if_pos (any_isSeparator_iff.mpr h), ite_self]

theorem refusal?_of_refused (h : Separated s ∨ TooLong s) :
    ∃ e, refusal? s = some e ∧ e.kind = .value := by
  rw [refusal?]
  split
  · exact ⟨_, rfl, rfl⟩
  · split
    · exact ⟨_, rfl, rfl⟩
    · rename_i hfits
      rw [if_pos (any_isSeparator_iff.mpr (h.resolve_right hfits))]
      exact ⟨_, rfl, rfl⟩

theorem counted_of_refused (h : Separated s ∨ TooLong s) (i : Int) :
    ∃ e, counted s i = .error e ∧ e.kind = .value := by
  obtain ⟨e, he, hkind⟩ := refusal?_of_refused h
  exact ⟨e, by rw [counted, he], hkind⟩

/-! ### Readings -/

/-- The value of what is left of a text without the blanks around it. -/
def reading (whole : Int → Except Fault Value) (s : List Char) : Except Fault Value :=
  if isNull s then .ok .null
  else if let some b := bool? s then .ok (.bool b)
  else if let some i := int? s then whole i
  else if let some d := float? s then .ok (.float d)
  else match json? s with
    | .error e => .error e
    | .ok (some v) => .ok v
    | .ok none => .ok (.text (String.ofList s))

theorem value_eq (text : String) :
    value text = reading (counted text.toList) (Text.trim text.toList) := rfl

/-- Either a text is read as a whole number, or what becomes of whole numbers does not matter to it. -/
theorem reading_cases (s : List Char) :
    (∃ i, ∀ whole, reading whole s = whole i) ∨
      ∃ x, (∀ whole, reading whole s = x) ∧ ∀ i, x ≠ .ok (.int i) := by
  unfold reading
  cases isNull s with
  | true => exact .inr ⟨.ok .null, fun _ => rfl, by rintro _ ⟨⟩⟩
  | false =>
      cases bool? s with
      | some b => exact .inr ⟨.ok (.bool b), fun _ => rfl, by rintro _ ⟨⟩⟩
      | none =>
          cases int? s with
          | some i => exact .inl ⟨i, fun _ => rfl⟩
          | none =>
              cases float? s with
              | some d => exact .inr ⟨.ok (.float d), fun _ => rfl, by rintro _ ⟨⟩⟩
              | none =>
                  cases hjson : json? s with
                  | error e => exact .inr ⟨.error e, fun _ => rfl, by rintro _ ⟨⟩⟩
                  | ok found =>
                      cases found with
                      | none =>
                          exact .inr ⟨.ok (.text (String.ofList s)), fun _ => rfl, by rintro _ ⟨⟩⟩
                      | some w =>
                          refine .inr ⟨.ok w, fun _ => rfl, ?_⟩
                          rintro i ⟨⟩
                          cases nested_of_json? hjson

/-! ### Blanks around -/

theorem separated_surrounded : Separated (a ++ v ++ b).toList ↔
    Separated v.toList ∨ Separated (a ++ b).toList := by
  simp only [Separated, String.toList_append, List.mem_append, or_and_right, exists_or]
  rw [or_assoc, or_left_comm]

theorem tooLong_surrounded (ha : ∀ c ∈ a.toList, Text.isBlank c = true)
    (hb : ∀ c ∈ b.toList, Text.isBlank c = true) : TooLong (a ++ v ++ b).toList ↔ TooLong v.toList := by
  rw [TooLong, String.toList_append, String.toList_append, Text.filter_isDigit_surrounded ha hb,
    TooLong]

theorem counted_surrounded (ha : ∀ c ∈ a.toList, Text.isBlank c = true)
    (hb : ∀ c ∈ b.toList, Text.isBlank c = true) (i : Int) :
    ((counted (a ++ v ++ b).toList i).mapError Fault.kind = (counted v.toList i).mapError Fault.kind ↔
        ¬((∃ j, counted v.toList i = .ok (.int j)) ∧ Separated (a ++ b).toList)) ∧
      ((∃ j, counted v.toList i = .ok (.int j)) → Separated (a ++ b).toList →
        counted (a ++ v ++ b).toList i = .error (.notInteger 10 (a ++ v ++ b))) := by
  have hlong : TooLong (a ++ v ++ b).toList ↔ TooLong v.toList := tooLong_surrounded ha hb
  by_cases hrefused : Separated v.toList ∨ TooLong v.toList
  · obtain ⟨e, he, hkind⟩ := counted_of_refused hrefused i
    have hrefused' : Separated (a ++ v ++ b).toList ∨ TooLong (a ++ v ++ b).toList := by
      rw [separated_surrounded, hlong]
      exact hrefused.imp_left .inl
    obtain ⟨e', he', hkind'⟩ := counted_of_refused hrefused' i
    have hnone : ¬∃ j, counted v.toList i = .ok (.int j) := by
      rw [he]
      rintro ⟨_, ⟨⟩⟩
    refine ⟨iff_of_true ?_ fun h => hnone h.1, fun h => absurd h hnone⟩
    rw [he, he']
    exact congrArg Except.error (hkind'.trans hkind.symm)
  · obtain ⟨hv, hfits⟩ := not_or.mp hrefused
    have hfits' := mt hlong.mp hfits
    rw [counted_of_plain hv hfits]
    by_cases hab : Separated (a ++ b).toList
    · have hseparated := counted_of_separated (separated_surrounded.mpr (.inr hab)) hfits' i
      rw [String.ofList_toList] at hseparated
      rw [hseparated]
      exact ⟨iff_of_false (by rintro ⟨⟩) fun h => h ⟨⟨i, rfl⟩, hab⟩, fun _ _ => rfl⟩
    · have hplain := mt separated_surrounded.mp (not_or.mpr ⟨hv, hab⟩)
      rw [counted_of_plain hplain hfits']
      exact ⟨iff_of_true rfl fun h => hab h.2, fun _ h => absurd h hab⟩

/-- Blanks around a text do not change what it is read as, but for separators around a whole number that
is read without them: it is refused. -/
theorem value_surrounded (ha : ∀ c ∈ a.toList, Text.isBlank c = true)
    (hb : ∀ c ∈ b.toList, Text.isBlank c = true) :
    ((value (a ++ v ++ b)).mapError Fault.kind = (value v).mapError Fault.kind ↔
        ¬((∃ i, value v = .ok (.int i)) ∧ Separated (a ++ b).toList)) ∧
      ((∃ i, value v = .ok (.int i)) → Separated (a ++ b).toList →
        value (a ++ v ++ b) = .error (.notInteger 10 (a ++ v ++ b))) := by
  have htrim : Text.trim (a ++ v ++ b).toList = Text.trim v.toList := by
    rw [String.toList_append, String.toList_append, Text.trim_surrounded ha hb]
  rw [value_eq, value_eq, htrim]
  rcases reading_cases (Text.trim v.toList) with ⟨i, hi⟩ | ⟨x, hx, hint⟩
  · rw [hi, hi]
    exact counted_surrounded ha hb i
  · rw [hx, hx]
    have hnone : ¬∃ i, x = .ok (.int i) := fun ⟨i, h⟩ => hint i h
    exact ⟨iff_of_true rfl fun h => hnone h.1, fun h => absurd h hnone⟩

theorem value_surrounded_spaces :
    (∀ c ∈ "\t\u2028".toList, Text.isBlank c = true) ∧
      (∀ c ∈ "\u00a0\n".toList, Text.isBlank c = true) ∧
      value "-12" = .ok (.int (-12)) ∧ ¬Separated ("\t\u2028" ++ "\u00a0\n").toList ∧
      (value ("\t\u2028" ++ "-12" ++ "\u00a0\n")).mapError Fault.kind =
        (value "-12").mapError Fault.kind := by
  have ha : ∀ c ∈ "\t\u2028".toList, Text.isBlank c = true := List.all_eq_true.mp (by decide)
  have hb : ∀ c ∈ "\u00a0\n".toList, Text.isBlank c = true := List.all_eq_true.mp (by decide)
  have hplain : ¬Separated ("\t\u2028" ++ "\u00a0\n").toList :=
    mt any_isSeparator_iff.mpr (by decide)
  exact ⟨ha, hb, rfl, hplain, (value_surrounded ha hb).1.mpr fun h => hplain h.2⟩

/-- A separator before a number is blank, and yet the number is refused. -/
theorem value_separated :
    (∀ c ∈ "\x1c".toList, Text.isBlank c = true) ∧ value "12" = .ok (.int 12) ∧
      value ("\x1c" ++ "12" ++ "") = .error (.notInteger 10 "\x1c12") ∧
      (value ("\x1c" ++ "12" ++ "")).mapError Fault.kind ≠ (value "12").mapError Fault.kind := by
  have hplain : value "12" = .ok (.int 12) := rfl
  have hrefused : value ("\x1c" ++ "12" ++ "") = .error (.notInteger 10 "\x1c12") := rfl
  refine ⟨List.all_eq_true.mp (by decide), hplain, hrefused, ?_⟩
  rw [hplain, hrefused]
  rintro ⟨⟩

end Coerce

end Splice
