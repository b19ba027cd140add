import Splice.Proofs.Text.Numerals
import Splice.Proofs.Text.Pieces
import Splice.Proofs.Value.Surrounded

namespace Splice.Coerce

variable {c : Char} {s ds t : List Char} {ns : List Nat} {i : Int} {d : Double} {text : String}
  {v : Value}

/-! ### Numbers -/

theorem isDigits_iff : isDigits ds = true ↔ ds ≠ [] ∧ ds.all Text.isDigit = true := by
  rw [isDigits, Bool.and_eq_true, decide_eq_true_iff]

theorem int?_eq (s : List Char) : int? s = if isDigits (Text.unsigned s).2 then
    some (Text.signed (Text.unsigned s).1 (Text.digitsValue (Text.unsigned s).2)) else none := rfl

theorem int?_of_digits {negative : Bool} (hs : Text.unsigned s = (negative, ds)) (hne : ds ≠ [])
    (h : Text.Digits ds ns) :
    int? s = some (Text.signed negative (Nat.ofDigits 10 ns.reverse)) := by
  have hdigits : isDigits ds = true :=
    isDigits_iff.mpr ⟨hne, List.all_eq_true.mpr (Text.isDigit_of_digits h)⟩
  rw [int?_eq, hs, if_pos hdigits, Text.digitsValue_eq h]

/-- What is read as a whole number is written as one, and means what it says. -/
theorem int?_eq_some_iff : int? s = some i ↔ Text.Numeral s i := by
  constructor
  · intro h
    rw [int?_eq, Option.ite_none_right_eq_some, Option.some.injEq] at h
    obtain ⟨hdigits, rfl⟩ := h
    obtain ⟨hne, hall⟩ := isDigits_iff.mp hdigits
    obtain ⟨ns, hns⟩ := Text.exists_digits hall
    rw [Text.digitsValue_eq hns]
    rcases Text.unsigned_cases s with ⟨t, rfl, hs⟩ | ⟨t, rfl, hs⟩ | hs
    · rw [hs] at hne hns ⊢
      exact .minus hne hns
    · rw [hs] at hne hns ⊢
      exact .plus hne hns
    · rw [hs] at hne hns ⊢
      exact .plain hne hns
  · intro h
    cases h with
    | plain hne h =>
        obtain ⟨c, t, rfl⟩ := List.exists_cons_of_ne_nil hne
        have hc := Text.isDigit_of_digits h c List.mem_cons_self
        exact int?_of_digits (Text.unsigned_of_isDigit hc t) hne h
    | plus hne h => exact int?_of_digits rfl hne h
    | minus hne h => exact int?_of_digits rfl hne h

/-- Numbers begin with a digit, a sign or a point. -/
def Leads (c : Char) : Prop := Text.isDigit c = true ∨ c ∈ ['+', '-', '.']

theorem Leads.isLower (h : Leads c) : Text.IsLower c := by
  rcases h with h | h
  · exact Text.isLower_of_isDigit h
  · simp only [List.mem_cons, List.not_mem_nil, or_false] at h
    rcases h with rfl | rfl | rfl <;> exact ⟨by decide, by decide +kernel⟩

theorem Leads.not_mem (h : Leads c) : c ∉ ['n', '~', 't', 'f', '\x7b', '['] := by
  intro hc
  simp only [List.mem_cons, List.not_mem_nil, or_false] at hc
  rcases hc with rfl | rfl | rfl | rfl | rfl | rfl
  all_goals exact absurd h (by unfold Leads; decide)

theorem head_lower (h : Text.IsLower c) (s : List Char) : (Text.lower (c :: s)).head? = some c := by
  rw [Text.lower, Text.lowerFrom, Text.lowerAt_of_isLower h]
  rfl

theorem leads_of_numeral (h : Text.Numeral s i) : ∃ c t, s = c :: t ∧ Leads c ∧ '.' ∉ s := by
  have hpoint {ds : List Char} {ns : List Nat} (h : Text.Digits ds ns) : '.' ∉ ds :=
    fun hmem => absurd (Text.isDigit_of_digits h '.' hmem) (by decide)
  cases h with
  | plain hne h =>
      obtain ⟨c, t, rfl⟩ := List.exists_cons_of_ne_nil hne
      exact ⟨c, t, rfl, .inl (Text.isDigit_of_digits h c List.mem_cons_self), hpoint h⟩
  | plus hne h =>
      exact ⟨'+', _, rfl, .inr (by decide), List.not_mem_cons_of_ne_of_not_mem (by decide) (hpoint h)⟩
  | minus hne h =>
      exact ⟨'-', _, rfl, .inr (by decide), List.not_mem_cons_of_ne_of_not_mem (by decide) (hpoint h)⟩

theorem eq_of_cut {p q : List Char} (h : Text.cut c s = [p, q]) : s = p ++ c :: q := by
  rw [← Text.intercalate_cut c s, h]
  simp [List.intercalate]

theorem leads_of_point {whole part : List Char} (h : isDigits (whole ++ part) = true) :
    ∃ c t, whole ++ '.' :: part = c :: t ∧ Leads c := by
  cases whole with
  | nil => exact ⟨'.', part, rfl, .inr (by decide)⟩
  | cons c whole =>
      refine ⟨c, whole ++ '.' :: part, rfl, .inl ?_⟩
      exact List.all_eq_true.mp (isDigits_iff.mp h).2 c List.mem_cons_self

theorem point_of_float? (h : float? s = some d) : ∃ whole part,
    (Text.unsigned s).2 = whole ++ '.' :: part ∧ isDigits (whole ++ part) = true := by
  unfold float? at h
  split at h
  rename_i negative ds hs
  split at h
  · rename_i whole part hcut
    split at h
    · rename_i hdigits
      exact ⟨whole, part, by rw [hs, eq_of_cut hcut], hdigits⟩
    · cases h
  · cases h

theorem leads_of_float? (h : float? s = some d) : ∃ c t, s = c :: t ∧ Leads c ∧ '.' ∈ s := by
  obtain ⟨whole, part, hrest, hdigits⟩ := point_of_float? h
  have hpoint : '.' ∈ (Text.unsigned s).2 := by
    rw [hrest]
    exact List.mem_append_right _ List.mem_cons_self
  rcases Text.unsigned_cases s with ⟨t, rfl, hs⟩ | ⟨t, rfl, hs⟩ | hs
  · rw [hs] at hpoint
    exact ⟨'-', t, rfl, .inr (by decide), List.mem_cons_of_mem _ hpoint⟩
  · rw [hs] at hpoint
    exact ⟨'+', t, rfl, .inr (by decide), List.mem_cons_of_mem _ hpoint⟩
  · rw [hs] at hpoint hrest
    obtain ⟨c, t, heq, hc⟩ := leads_of_point hdigits
    exact ⟨c, t, hrest.trans heq, hc, hpoint⟩

/-! ### Casters -/

/-- The ways to read a text as more than a mere text. -/
inductive Caster
  | null
  | bool
  | int
  | float
  | json
  deriving DecidableEq, Repr

namespace Caster

/-- All casters, in the order in which they are tried. -/
def all : List Caster := [null, bool, int, float, json]

/-- What a caster makes of a text: it accepts it as a value, rejects it, or fails. -/
def cast (text : String) : Caster → Except Fault (Option Value)
  | null => .ok (if isNull (Text.trim text.toList) then some .null else none)
  | bool => .ok ((bool? (Text.trim text.toList)).map .bool)
  | int => match int? (Text.trim text.toList) with
    | some i => (counted text.toList i).map some
    | none => .ok none
  | float => .ok ((float? (Text.trim text.toList)).map .float)
  | json => json? (Text.trim text.toList)

/-- The caster accepts the text, or fails on it. -/
def Answers (text : String) (c : Caster) : Prop := c.cast text ≠ .ok none

/-- The only caster that may answer for a text, by the beginning of its lower case and by its points. -/
def candidate (s : List Char) : Caster :=
  match (Text.lower s).head? with
  | some 'n' | some '~' => null
  | some 't' | some 'f' => bool
  | some '\x7b' | some '[' => json
  | _ => if '.' ∈ s then float else int

end Caster

/-- Try casters in turn. What none of them accepts is a mere text, without the blanks around it. -/
def tried (text : String) : List Caster → Except Fault Value
  | [] => .ok (.text (Text.trimmed text))
  | c :: cs => match c.cast text with
    | .error e => .error e
    | .ok (some v) => .ok v
    | .ok none => tried text cs

theorem value_eq_tried (text : String) : value text = tried text Caster.all := by
  rw [value_eq]
  simp only [reading, Caster.all, tried, Caster.cast]
  cases isNull (Text.trim text.toList) with
  | true => rfl
  | false =>
      cases bool? (Text.trim text.toList) with
      | some b => rfl
      | none =>
          cases int? (Text.trim text.toList) with
          | some i =>
              dsimp only
              cases counted text.toList i <;> rfl
          | none =>
              cases float? (Text.trim text.toList) with
              | some d => rfl
              | none => rfl

/-! ### No two casters answer for one text -/

theorem candidate_of_leads (hc : Leads c) : Caster.candidate (c :: s) =
    if '.' ∈ c :: s then .float else .int := by
  have hletter := hc.not_mem
  simp only [List.mem_cons, List.not_mem_nil, or_false, not_or] at hletter
  rw [Caster.candidate, head_lower hc.isLower]
  split <;> simp_all

theorem candidate_of_isNull (h : isNull s = true) : Caster.candidate s = .null := by
  simp only [isNull, List.contains_cons, List.contains_nil, Bool.or_false, Bool.or_eq_true,
    beq_iff_eq] at h
  unfold Caster.candidate
  rcases h with h | h | h <;> rw [h] <;> rfl

theorem candidate_of_bool? {b : Bool} (h : bool? s = some b) : Caster.candidate s = .bool := by
  unfold Caster.candidate
  unfold bool? at h
  split at h
  · rename_i htrue
    rw [htrue]
    rfl
  · split at h
    · rename_i hfalse
      rw [hfalse]
      rfl
    · cases h

theorem candidate_of_isBracketed (h : isBracketed s = true) : Caster.candidate s = .json := by
  obtain ⟨c, t, rfl, hc⟩ := head_of_isBracketed h
  simp only [List.mem_cons, List.not_mem_nil, or_false] at hc
  have hlower : Text.IsLower c := by
    rcases hc with rfl | rfl <;> exact ⟨by decide, by decide +kernel⟩
  rw [Caster.candidate, head_lower hlower]
  rcases hc with rfl | rfl <;> rfl

theorem Caster.Answers.eq_candidate {k : Caster} (h : k.Answers text) :
    k = Caster.candidate (Text.trim text.toList) := by
  unfold Caster.Answers Caster.cast at h
  -- What a caster takes a text for tells how it begins, and whether it has a point.
  cases k with
  | null =>
      dsimp only at h
      split at h
      · rename_i hnull
        exact (candidate_of_isNull hnull).symm
      · exact absurd rfl h
  | bool =>
      dsimp only at h
      cases hbool : bool? (Text.trim text.toList) with
      | some b => exact (candidate_of_bool? hbool).symm
      | none => exact absurd (by rw [hbool]; rfl) h
  | int =>
      dsimp only at h
      split at h
      · rename_i hint
        obtain ⟨c, t, hs, hc, hpoint⟩ := leads_of_numeral (int?_eq_some_iff.mp hint)
        rw [hs] at hpoint ⊢
        rw [candidate_of_leads hc, if_neg hpoint]
      · exact absurd rfl h
  | float =>
      dsimp only at h
      cases hfloat : float? (Text.trim text.toList) with
      | some d =>
          obtain ⟨c, t, hs, hc, hpoint⟩ := leads_of_float? hfloat
          rw [hs] at hpoint ⊢
          rw [candidate_of_leads hc, if_pos hpoint]
      | none => exact absurd (by rw [hfloat]; rfl) h
  | json =>
      dsimp only at h
      by_cases hs : isBracketed (Text.trim text.toList) = true
      · exact (candidate_of_isBracketed hs).symm
      · exact absurd (by rw [json?, if_neg hs]) h

/-! ### Any order -/

variable {k : Caster} {cs order : List Caster}

theorem tried_of_rejected (h : k.cast text = .ok none) (cs : List Caster) :
    tried text (k :: cs) = tried text cs := by
  rw [tried, h]

theorem tried_of_answers (h : k.Answers text) (cs : List Caster) :
    tried text (k :: cs) = tried text [k] := by
  rw [tried, tried]
  unfold Caster.Answers at h
  cases hcast : k.cast text with
  | error e => rfl
  | ok found =>
      cases found with
      | none => exact absurd hcast h
      | some v => rfl

theorem tried_of_all_rejected (h : ∀ k ∈ cs, k.cast text = .ok none) :
    tried text cs = .ok (.text (Text.trimmed text)) := by
  induction cs with
  | nil => rfl
  | cons k cs ih =>
      obtain ⟨hk, hcs⟩ := List.forall_mem_cons.mp h
      rw [tried_of_rejected hk, ih hcs]

theorem all_rejected (h : ¬(Caster.candidate (Text.trim text.toList)).Answers text) (k : Caster) :
    k.cast text = .ok none := by
  by_contra hk
  exact h (Caster.Answers.eq_candidate hk ▸ hk)

theorem tried_of_candidate_answers (h : (Caster.candidate (Text.trim text.toList)).Answers text)
    (hmem : Caster.candidate (Text.trim text.toList) ∈ cs) :
    tried text cs = tried text [Caster.candidate (Text.trim text.toList)] := by
  induction cs with
  | nil => exact absurd hmem List.not_mem_nil
  | cons k cs ih =>
      by_cases hk : k.Answers text
      · rw [tried_of_answers hk, hk.eq_candidate]
      · rcases List.mem_cons.mp hmem with rfl | hmem
        · exact absurd h hk
        · rw [tried_of_rejected (not_not.mp hk), ih hmem]

/-- Where the only caster that may answer is tried, the others make no difference. -/
theorem tried_eq (hmem : Caster.candidate (Text.trim text.toList) ∈ cs) :
    tried text cs = tried text [Caster.candidate (Text.trim text.toList)] := by
  -- If that caster rejects the text, all do, and what is left is the mere text in any order.
  by_cases h : (Caster.candidate (Text.trim text.toList)).Answers text
  · exact tried_of_candidate_answers h hmem
  · rw [tried_of_all_rejected fun k _ => all_rejected h k,
      tried_of_all_rejected fun k _ => all_rejected h k]

theorem Caster.mem_all (k : Caster) : k ∈ Caster.all := by
  cases k <;> decide

theorem tried_perm (h : order.Perm Caster.all) (text : String) : tried text order = value text := by
  rw [value_eq_tried, tried_eq (h.mem_iff.mpr (Caster.mem_all _)), tried_eq (Caster.mem_all _)]

theorem value_document (hs : isBracketed (Text.trim text.toList) = true)
    (hv : Json.read (Text.trim text.toList) = .ok v) : value text = .ok v := by
  have hcast : Caster.json.cast text = .ok (some v) := by
    rw [Caster.cast, json?, if_pos hs, hv]
  rw [value_eq_tried, tried_eq (Caster.mem_all _), candidate_of_isBracketed hs, tried, hcast]

/-! ### Mere texts -/

theorem cast_ne_text (k : Caster) {t : String} : k.cast text ≠ .ok (some (.text t)) := by
  intro h
  unfold Caster.cast at h
  cases k with
  | null =>
      dsimp only at h
      split at h <;> cases h
  | bool =>
      dsimp only at h
      cases hbool : bool? (Text.trim text.toList) <;> rw [hbool] at h <;> cases h
  | int =>
      dsimp only at h
      split at h
      · unfold counted at h
        split at h <;> cases h
      · cases h
  | float =>
      dsimp only at h
      cases hfloat : float? (Text.trim text.toList) <;> rw [hfloat] at h <;> cases h
  | json => cases nested_of_json? h

theorem value_eq_text_iff {t : String} : value text = .ok (.text t) ↔
    t = Text.trimmed text ∧ ∀ k : Caster, k.cast text = .ok none := by
  rw [value_eq_tried]
  constructor
  · intro h
    have hreject : ¬(Caster.candidate (Text.trim text.toList)).Answers text := by
      intro hanswers
      rw [tried_eq (Caster.mem_all _), tried] at h
      split at h
      · cases h
      · rename_i hcast
        cases h
        exact cast_ne_text _ hcast
      · rename_i hcast
        exact hanswers hcast
    rw [tried_of_all_rejected fun k _ => all_rejected hreject k] at h
    cases h
    exact ⟨rfl, all_rejected hreject⟩
  · rintro ⟨rfl, hreject⟩
    exact tried_of_all_rejected fun k _ => hreject k

theorem toList_trimmed (text : String) : (Text.trimmed text).toList = Text.trim text.toList :=
  String.toList_ofList

theorem trimmed_trimmed (text : String) : Text.trimmed (Text.trimmed text) = Text.trimmed text := by
  rw [Text.trimmed, toList_trimmed, Text.trim_trim, Text.trimmed]

theorem rejects_trimmed {k : Caster} (h : k.cast text = .ok none) :
    k.cast (Text.trimmed text) = .ok none := by
  have htrim : Text.trim (Text.trimmed text).toList = Text.trim text.toList := by
    rw [toList_trimmed, Text.trim_trim]
  unfold Caster.cast at h ⊢
  rw [htrim]
  cases k with
  | int =>
      dsimp only at h ⊢
      split at h
      · unfold counted at h
        split at h <;> cases h
      · rfl
  | null | bool | float | json => exact h

theorem value_trimmed {t : String} (h : value text = .ok (.text t)) :
    t = Text.trimmed text ∧ value t = .ok (.text t) := by
  obtain ⟨rfl, hreject⟩ := value_eq_text_iff.mp h
  exact ⟨rfl, value_eq_text_iff.mpr
    ⟨(trimmed_trimmed text).symm, fun k => rejects_trimmed (hreject k)⟩⟩

/-! ### Whole numbers -/

theorem counted_eq_ok_iff : counted s i = .ok v ↔ ¬Separated s ∧ ¬TooLong s ∧ v = .int i := by
  by_cases hrefused : Separated s ∨ TooLong s
  · obtain ⟨e, he, -⟩ := counted_of_refused hrefused i
    rw [he]
    exact iff_of_false (by rintro ⟨⟩) fun h => hrefused.elim h.1 h.2.1
  · obtain ⟨hplain, hfits⟩ := not_or.mp hrefused
    rw [counted_of_plain hplain hfits, and_iff_right hplain, and_iff_right hfits, Except.ok.injEq,
      eq_comm]

/-- A text is accepted as the whole number that it writes, if nothing stands against it. -/
theorem cast_int_iff : Caster.int.cast text = .ok (some v) ↔
    ∃ i, Text.Numeral (Text.trim text.toList) i ∧
      ¬Separated text.toList ∧ ¬TooLong text.toList ∧ v = .int i := by
  simp only [← int?_eq_some_iff, ← counted_eq_ok_iff, Caster.cast]
  cases int? (Text.trim text.toList) with
  | none => simp
  | some i => cases hcounted : counted text.toList i <;> simp [hcounted, Except.map]

/-- No two casters answer for one text, so that they may be tried in any order; whole numbers have the
value that their digits write, and mere texts are read as themselves. -/
theorem casters_disjoint (text : String) :
    (∀ j k : Caster, j.Answers text → k.Answers text → j = k) ∧
      (∀ order : List Caster, order.Perm Caster.all → tried text order = value text) ∧
      (∀ v, Caster.int.cast text = .ok (some v) ↔ ∃ i, Text.Numeral (Text.trim text.toList) i ∧
        ¬Separated text.toList ∧ ¬TooLong text.toList ∧ v = .int i) ∧
      ∀ t, value text = .ok (.text t) → t = Text.trimmed text ∧ value t = .ok (.text t) :=
  ⟨fun _ _ hj hk => hj.eq_candidate.trans hk.eq_candidate.symm, fun _ h => tried_perm h text,
    fun _ => cast_int_iff, fun _ h => value_trimmed h⟩

/-- A number in digits of another script, with a zero in front, whatever is tried first. -/
theorem casters_disjoint_arabic :
    Caster.int.cast "\u00a0-٠٣٤\n" = .ok (some (.int (-34))) ∧
      Caster.all.reverse.Perm Caster.all ∧
      tried "\u00a0-٠٣٤\n" Caster.all.reverse = .ok (.int (-34)) ∧
      value " a [b " = .ok (.text "a [b") ∧ value "a [b" = .ok (.text "a [b") := by
  have hint : Caster.int.cast "\u00a0-٠٣٤\n" = .ok (some (.int (-34))) := rfl
  have hperm : Caster.all.reverse.Perm Caster.all := List.reverse_perm _
  have htext : value " a [b " = .ok (.text "a [b") := rfl
  obtain ⟨-, horder, -, -⟩ := casters_disjoint "\u00a0-٠٣٤\n"
  obtain ⟨-, -, -, hfixed⟩ := casters_disjoint " a [b "
  exact ⟨hint, hperm, (horder _ hperm).trans rfl, htext, (hfixed _ htext).2⟩

end Splice.Coerce
