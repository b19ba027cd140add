import Splice.Proofs.Json.Scalars
import Splice.Proofs.Value.Entries

namespace Splice

namespace Entries

variable {α : Type} {m : Entries α} {k : Key} {v : α}

theorem insert_of_absent (h : k.meaning ∉ meanings m) : insert m k v = m ++ [(k, v)] := by
  induction m with
  | nil => rfl
  | cons e m ih =>
      obtain ⟨he, hm⟩ := not_or.mp (mt List.mem_cons.mpr h)
      rw [insert_cons_of_ne (Ne.symm he), ih hm, List.cons_append]

theorem Distinct.ofList_eq (h : Distinct m) : ofList m = m := by
  have hfold : ∀ (done rest : Entries α), Distinct (done ++ rest) →
      rest.foldl (fun m e => Entries.insert m e.1 e.2) done = done ++ rest := by
    intro done rest hdistinct
    induction rest generalizing done with
    | nil => rw [List.foldl_nil, List.append_nil]
    | cons e rest ih =>
        have habsent : e.1.meaning ∉ meanings done := by
          intro hmem
          have hnodup := hdistinct
          rw [Distinct, meanings, List.map_append, List.nodup_append] at hnodup
          exact hnodup.2.2 _ hmem _ List.mem_cons_self rfl
        rw [List.foldl_cons, insert_of_absent habsent, ih, List.append_assoc]
        · rfl
        · rw [List.append_assoc]
          exact hdistinct
  exact hfold [] m h

end Entries

namespace Json

/-- Values that a document holds as they are: without floating-point numbers, and with different
texts as keys. -/
inductive Portable : Value → Prop
  | null : Portable .null
  | bool (b : Bool) : Portable (.bool b)
  | int (i : Int) : Portable (.int i)
  | text (s : String) : Portable (.text s)
  | list {vs : List Value} (items : ∀ v ∈ vs, Portable v) : Portable (.list vs)
  | map {m : Mapping} (keys : ∀ e ∈ m, ∃ s, e.1 = .text s) (distinct : m.Distinct)
      (values : ∀ e ∈ m, Portable e.2) : Portable (.map m)

variable {indent limit : Option Nat} {depth : Nat} {c : Char} {s gap rest : List Char} {v : Value}

theorem portable_list_iff {vs : List Value} : Portable (.list vs) ↔ ∀ v ∈ vs, Portable v := by
  refine ⟨fun h => ?_, .list⟩
  cases h with
  | list items => exact items

theorem portable_map_iff {m : Mapping} : Portable (.map m) ↔
    (∀ e ∈ m, ∃ s, e.1 = .text s) ∧ m.Distinct ∧ ∀ e ∈ m, Portable e.2 := by
  refine ⟨fun h => ?_, fun h => .map h.1 h.2.1 h.2.2⟩
  cases h with
  | map keys distinct values => exact ⟨keys, distinct, values⟩

/-- No whole number in the value has more digits than the limit. -/
inductive Within (limit : Option Nat) : Value → Prop
  | null : Within limit .null
  | bool (b : Bool) : Within limit (.bool b)
  | int {i : Int} (fits : FitsIn limit i.natAbs) : Within limit (.int i)
  | float (d : Double) : Within limit (.float d)
  | text (s : String) : Within limit (.text s)
  | list {vs : List Value} (items : ∀ v ∈ vs, Within limit v) : Within limit (.list vs)
  | map {m : Mapping} (values : ∀ e ∈ m, Within limit e.2) : Within limit (.map m)

theorem within_int_iff {i : Int} : Within limit (.int i) ↔ FitsIn limit i.natAbs := by
  refine ⟨fun h => ?_, .int⟩
  cases h with
  | int fits => exact fits

theorem within_list_iff {vs : List Value} :
    Within limit (.list vs) ↔ ∀ v ∈ vs, Within limit v := by
  refine ⟨fun h => ?_, .list⟩
  cases h with
  | list items => exact items

theorem within_map_iff {m : Mapping} : Within limit (.map m) ↔ ∀ e ∈ m, Within limit e.2 := by
  refine ⟨fun h => ?_, .map⟩
  cases h with
  | map values => exact values

theorem Portable.within (h : Portable v) : Within none v := by
  induction h with
  | null => exact .null
  | bool b => exact .bool b
  | int i => exact .int (by rintro k ⟨⟩)
  | text s => exact .text s
  | list items ih => exact .list ih
  | map keys distinct values ih => exact .map ih

theorem portable_fields (fields : List (String × Value))
    (hnames : (fields.map Prod.fst).Nodup) (hvalues : ∀ f ∈ fields, Portable f.2) :
    Portable (.map (fields.map fun f => (.text f.1, f.2))) := by
  refine .map ?_ ?_ ?_
  · intro e he
    obtain ⟨f, -, rfl⟩ := List.mem_map.mp he
    exact ⟨f.1, rfl⟩
  · have hmeanings : Entries.meanings (fields.map fun f => (Key.text f.1, f.2)) =
        (fields.map Prod.fst).map fun name => (Key.text name).meaning := by
      simp [Entries.meanings, Function.comp_def]
    rw [Entries.Distinct, hmeanings]
    refine List.Pairwise.map _ (fun name name' hne h => hne ?_) hnames
    exact Key.text.inj (Key.meaning_eq_text_iff.mp h)
  · intro e he
    obtain ⟨f, hf, rfl⟩ := List.mem_map.mp he
    exact hvalues f hf

/-! ### Gaps -/

theorem skipSpace_append (hgap : ∀ c ∈ gap, isSpace c = true)
    (hs : ∀ c ∈ s.head?, isSpace c = false) : skipSpace (gap ++ s) = s := by
  rw [skipSpace, List.dropWhile_append_of_pos hgap]
  cases s with
  | nil => rfl
  | cons c s => rw [List.dropWhile_cons_of_neg (by simp [hs c rfl])]

theorem isSpace_lineBreak (indent : Option Nat) (depth : Nat) :
    ∀ c ∈ lineBreak indent depth, isSpace c = true := by
  cases indent with
  | none => simp [lineBreak]
  | some n =>
      intro c hc
      rcases List.mem_cons.mp hc with rfl | hc
      · rfl
      · rw [List.eq_of_mem_replicate hc]
        rfl

theorem separator_eq (indent : Option Nat) (depth : Nat) :
    ∃ gap, separator indent depth = ',' :: gap ∧ ∀ c ∈ gap, isSpace c = true := by
  cases indent with
  | none => exact ⟨[' '], rfl, by simp [isSpace]⟩
  | some n => exact ⟨_, rfl, isSpace_lineBreak (some n) depth⟩

theorem skipSpace_lineBreak (hc : isSpace c = false) :
    skipSpace (lineBreak indent depth ++ c :: rest) = c :: rest :=
  skipSpace_append (isSpace_lineBreak indent depth) (by simpa using hc)

theorem skipSpace_cons (hc : isSpace c = false) : skipSpace (c :: rest) = c :: rest :=
  List.dropWhile_cons_of_neg (by simp [hc])

theorem ends_cons (h : c ∈ [',', '\n', ']', '\x7d']) : Ends (c :: rest) := by
  have hends : ∀ c ∈ [',', '\n', ']', '\x7d'],
      isAsciiDigit c = false ∧ c ≠ '.' ∧ c ≠ 'e' ∧ c ≠ 'E' := by
    simp [isAsciiDigit]
  intro d hd
  rw [← Option.some.inj hd]
  exact hends c h

theorem ends_lineBreak (h : c ∈ [']', '\x7d']) : Ends (lineBreak indent depth ++ c :: rest) := by
  cases indent with
  | none => exact ends_cons (List.mem_cons_of_mem _ (List.mem_cons_of_mem _ h))
  | some n => exact ends_cons (by decide)

theorem ends_space (h : ∀ c ∈ gap, isSpace c = true) : Ends gap := by
  intro c hc
  have hspace := h c (List.mem_of_mem_head? hc)
  simp only [isSpace, Bool.or_eq_true, decide_eq_true_eq] at hspace
  obtain ((rfl | rfl) | rfl) | rfl := hspace <;> decide

/-! ### Values -/

theorem not_space_of_digit (hc : isAsciiDigit c = true) : isSpace c = false ∧ c ≠ ']' := by
  constructor
  · cases hspace : isSpace c with
    | false => rfl
    | true =>
        simp only [isSpace, Bool.or_eq_true, decide_eq_true_eq] at hspace
        obtain ((rfl | rfl) | rfl) | rfl := hspace <;> cases hc
  · rintro rfl
    cases hc

/-- The first character of a value, which tells it from a gap and from the end of a list. -/
theorem head_writeValue (hv : Portable v) (indent : Option Nat) (depth : Nat) :
    ∃ c t, writeValue indent depth v = c :: t ∧ isSpace c = false ∧ c ≠ ']' := by
  cases hv with
  | null => exact ⟨'n', _, rfl, by decide, by decide⟩
  | bool b =>
      cases b with
      | false => exact ⟨'f', _, rfl, by decide, by decide⟩
      | true => exact ⟨'t', _, rfl, by decide, by decide⟩
  | int i =>
      obtain ⟨c, t, htext, hc⟩ := head_toString i
      refine ⟨c, t, htext, ?_⟩
      rcases hc with hc | rfl
      · exact not_space_of_digit hc
      · decide
  | text s => exact ⟨'"', _, rfl, by decide, by decide⟩
  | list items =>
      rename_i vs
      cases vs <;> exact ⟨'[', _, rfl, by decide, by decide⟩
  | map keys distinct values =>
      rename_i m
      cases m <;> exact ⟨'\x7b', _, rfl, by decide, by decide⟩

theorem skipSpace_blank (hv : Portable v) (indent : Option Nat) (depth : Nat) (s : List Char) :
    skipSpace (' ' :: (writeValue indent depth v ++ s)) = writeValue indent depth v ++ s := by
  obtain ⟨c, t, hhead, hspace, -⟩ := head_writeValue hv indent depth
  have hblank : ∀ c ∈ [' '], isSpace c = true := by simp [isSpace]
  exact skipSpace_append hblank (by simpa [hhead] using hspace)

theorem ne_bracket_of_digit (hc : isAsciiDigit c = true) : c ≠ '[' ∧ c ≠ '\x7b' := by
  constructor <;> rintro rfl <;> cases hc

theorem readValue_scalar (hlist : c ≠ '[') (hmap : c ≠ '\x7b') (fuel : Nat) (s : List Char) :
    readValue limit (fuel + 1) (c :: s) = readScalar limit (c :: s) := by
  rw [readValue]
  · exact fun _ h => hlist (List.cons.inj h).1
  · exact fun _ h => hmap (List.cons.inj h).1

theorem readItems_last {fuel : Nat} {s' : List Char} (hv : readValue limit fuel s = .ok (v, s'))
    (hs : skipSpace s' = ']' :: rest) : readItems limit (fuel + 1) s = .ok ([v], rest) := by
  rw [readItems, hv]
  simp only [hs]

theorem readItems_more {fuel : Nat} {s' : List Char} (hv : readValue limit fuel s = .ok (v, s'))
    (hs : skipSpace s' = ',' :: rest) :
    readItems limit (fuel + 1) s = (readItems limit fuel (skipSpace rest)).as (v :: ·) := by
  rw [readItems, hv]
  simp only [hs]

section

variable {fuel : Nat} {name : String} {t s' : List Char}

theorem readValue_list (hs : skipSpace s = c :: t) (hc : c ≠ ']') :
    readValue limit (fuel + 1) ('[' :: s) = (readItems limit fuel (c :: t)).as .list := by
  rw [readValue, hs]
  split
  · rename_i heq
    exact absurd (List.cons.inj heq).1 hc
  · rfl

theorem readValue_map (hs : skipSpace s = c :: t) (hc : c ≠ '\x7d') :
    readValue limit (fuel + 1) ('\x7b' :: s) =
      (readEntries limit fuel (c :: t)).as fun es => .map (Entries.ofList es) := by
  rw [readValue, hs]
  split
  · rename_i heq
    exact absurd (List.cons.inj heq).1 hc
  · rfl

theorem readEntries_last (hv : readValue limit fuel (skipSpace t) = .ok (v, s'))
    (hs : skipSpace s' = '\x7d' :: rest) :
    readEntries limit (fuel + 1) (writeText name.toList ++ (':' :: t)) =
      .ok ([(.text name, v)], rest) := by
  rw [writeText, List.cons_append, List.append_assoc, List.singleton_append, readEntries,
    readText_writeText]
  simp only [skipSpace_cons (c := ':') (by decide), hv, hs]

theorem readEntries_more (hv : readValue limit fuel (skipSpace t) = .ok (v, s'))
    (hs : skipSpace s' = ',' :: rest) :
    readEntries limit (fuel + 1) (writeText name.toList ++ (':' :: t)) =
      (readEntries limit fuel (skipSpace rest)).as ((.text name, v) :: ·) := by
  rw [writeText, List.cons_append, List.append_assoc, List.singleton_append, readEntries,
    readText_writeText]
  simp only [skipSpace_cons (c := ':') (by decide), hv, hs]

/-! ### Round trips -/

variable (indent : Option Nat) (depth fuel : Nat)

theorem readValue_null (rest : List Char) :
    readValue limit (fuel + 1) (writeValue indent depth .null ++ rest) = .ok (.null, rest) := by
  show readValue limit (fuel + 1) ('n' :: 'u' :: 'l' :: 'l' :: rest) = _
  rw [readValue_scalar (by decide) (by decide)]
  rfl

theorem readValue_bool (b : Bool) (rest : List Char) :
    readValue limit (fuel + 1) (writeValue indent depth (.bool b) ++ rest) =
      .ok (.bool b, rest) := by
  cases b with
  | false =>
      show readValue limit (fuel + 1) ('f' :: 'a' :: 'l' :: 's' :: 'e' :: rest) = _
      rw [readValue_scalar (by decide) (by decide)]
      rfl
  | true =>
      show readValue limit (fuel + 1) ('t' :: 'r' :: 'u' :: 'e' :: rest) = _
      rw [readValue_scalar (by decide) (by decide)]
      rfl

theorem readValue_int {i : Int} (hwithin : Within limit (.int i)) (hrest : Ends rest) :
    readValue limit (fuel + 1) (writeValue indent depth (.int i) ++ rest) = .ok (.int i, rest) := by
  obtain ⟨c, t, htext, hc⟩ := head_toString i
  have hread := readScalar_int (within_int_iff.mp hwithin) hrest
  have hne : c ≠ '[' ∧ c ≠ '\x7b' := by
    rcases hc with hc | rfl
    · exact ne_bracket_of_digit hc
    · decide
  rw [writeValue]
  rw [htext] at hread ⊢
  rw [List.cons_append, readValue_scalar hne.1 hne.2]
  exact hread

theorem readValue_text (s : String) (rest : List Char) :
    readValue limit (fuel + 1) (writeValue indent depth (.text s) ++ rest) =
      .ok (.text s, rest) := by
  rw [writeValue, writeText, List.cons_append, readValue_scalar (by decide) (by decide), readScalar,
    List.append_assoc, List.singleton_append, readText_writeText]
  rfl

variable {indent depth fuel}

theorem readValue_items {vs : List Value} (hv : Portable v)
    (hitems : readItems limit fuel (writeValue indent (depth + 1) v ++
      (writeItems indent (depth + 1) vs ++ (lineBreak indent depth ++ ']' :: rest))) =
        .ok (v :: vs, rest)) :
    readValue limit (fuel + 1) (writeValue indent depth (.list (v :: vs)) ++ rest) =
      .ok (.list (v :: vs), rest) := by
  obtain ⟨c, t, hhead, hspace, hclosing⟩ := head_writeValue hv indent (depth + 1)
  rw [writeValue]
  simp only [List.cons_append, List.append_assoc, List.nil_append]
  rw [hhead, List.cons_append] at hitems ⊢
  rw [readValue_list (skipSpace_lineBreak hspace) hclosing, hitems, Reading.as_ok]

theorem readValue_entries {es : Mapping} (hdistinct : Entries.Distinct ((.text name, v) :: es))
    (hentries : readEntries limit fuel (writeText name.toList ++ (':' :: ' ' ::
      (writeValue indent (depth + 1) v ++ (writeEntries indent (depth + 1) es ++
        (lineBreak indent depth ++ '\x7d' :: rest))))) = .ok ((.text name, v) :: es, rest)) :
    readValue limit (fuel + 1) (writeValue indent depth (.map ((.text name, v) :: es)) ++ rest) =
      .ok (.map ((.text name, v) :: es), rest) := by
  rw [writeValue, keyText]
  simp only [List.cons_append, List.append_assoc, List.nil_append]
  rw [writeText, List.cons_append] at hentries ⊢
  rw [readValue_map (skipSpace_lineBreak (by decide)) (by decide), hentries, Reading.as_ok,
    hdistinct.ofList_eq]

end

mutual
/-- A value is read as it was written, whatever ends it. -/
theorem readValue_writeValue (indent : Option Nat) : ∀ (v : Value) (depth fuel : Nat)
    (rest : List Char), Portable v → Within limit v → Ends rest →
      (writeValue indent depth v).length < fuel →
      readValue limit fuel (writeValue indent depth v ++ rest) = .ok (v, rest)
  | .null, depth, fuel + 1, rest, _, _, _, _ => readValue_null indent depth fuel rest
  | .bool b, depth, fuel + 1, rest, _, _, _, _ => readValue_bool indent depth fuel b rest
  | .int _, depth, fuel + 1, _, _, hwithin, hrest, _ =>
      readValue_int indent depth fuel hwithin hrest
  | .float d, depth, fuel + 1, rest, hv, _, _, _ => by cases hv
  | .text s, depth, fuel + 1, rest, _, _, _, _ => readValue_text indent depth fuel s rest
  | .list [], depth, fuel + 1, rest, _, _, _, _ => by
      show readValue limit (fuel + 1) ('[' :: ']' :: rest) = _
      rw [readValue, skipSpace_cons (by decide)]
      rfl
  | .list (v :: vs), depth, fuel + 1, rest, hv, hwithin, _, hfuel => by
      obtain ⟨hv, hvs⟩ := List.forall_mem_cons.mp (portable_list_iff.mp hv)
      obtain ⟨hfirst, hothers⟩ := List.forall_mem_cons.mp (within_list_iff.mp hwithin)
      simp only [writeValue, List.length_cons, List.length_append, List.length_nil] at hfuel
      obtain ⟨g, rfl⟩ : ∃ g, fuel = g + 1 := ⟨fuel - 1, by omega⟩
      have hread : ∀ tail, Ends tail →
          readValue limit g (writeValue indent (depth + 1) v ++ tail) = .ok (v, tail) :=
        fun tail htail =>
          readValue_writeValue indent v (depth + 1) g tail hv hfirst htail (by omega)
      exact readValue_items hv (readItems_writeItems indent vs (depth + 1) depth g v
        (writeValue indent (depth + 1) v) rest hvs hothers (by omega) hread)
  | .map [], depth, fuel + 1, rest, _, _, _, _ => by
      show readValue limit (fuel + 1) ('\x7b' :: '\x7d' :: rest) = _
      rw [readValue, skipSpace_cons (by decide)]
      rfl
  | .map ((k, v) :: es), depth, fuel + 1, rest, hv, hwithin, _, hfuel => by
      obtain ⟨hkeys, hdistinct, hvalues⟩ := portable_map_iff.mp hv
      obtain ⟨⟨name, rfl⟩, hnames⟩ := List.forall_mem_cons.mp hkeys
      obtain ⟨hfirst, hothers⟩ := List.forall_mem_cons.mp hvalues
      obtain ⟨hwithin, hwithins⟩ := List.forall_mem_cons.mp (within_map_iff.mp hwithin)
      simp only [writeValue, List.length_cons, List.length_append, List.length_nil] at hfuel
      obtain ⟨g, rfl⟩ : ∃ g, fuel = g + 1 := ⟨fuel - 1, by omega⟩
      have hread : ∀ tail, Ends tail →
          readValue limit g (writeValue indent (depth + 1) v ++ tail) = .ok (v, tail) :=
        fun tail htail =>
          readValue_writeValue indent v (depth + 1) g tail hfirst hwithin htail (by omega)
      exact readValue_entries hdistinct (readEntries_writeEntries indent es (depth + 1) depth g name v
        rest hnames hothers hwithins hfirst (by omega) hread)
  | v, depth, 0, rest, _, _, _, h => absurd h (Nat.not_lt_zero _)

theorem readItems_writeItems (indent : Option Nat) : ∀ (vs : List Value) (depth below fuel : Nat)
    (v : Value) (t rest : List Char), (∀ x ∈ vs, Portable x) → (∀ x ∈ vs, Within limit x) →
      (writeItems indent depth vs).length < fuel →
      (∀ tail, Ends tail → readValue limit fuel (t ++ tail) = .ok (v, tail)) →
      readItems limit (fuel + 1) (t ++ (writeItems indent depth vs ++
        (lineBreak indent below ++ ']' :: rest))) = .ok (v :: vs, rest)
  | [], depth, below, fuel, v, t, rest, _, _, _, hread => by
      rw [writeItems, List.nil_append]
      exact readItems_last (hread _ (ends_lineBreak (by decide))) (skipSpace_lineBreak (by decide))
  | v' :: vs, depth, below, fuel, v, t, rest, hvs, hwithins, hfuel, hread => by
      obtain ⟨hv', hothers⟩ := List.forall_mem_cons.mp hvs
      obtain ⟨hwithin, hwithins⟩ := List.forall_mem_cons.mp hwithins
      obtain ⟨c, t', hhead, hspace, -⟩ := head_writeValue hv' indent depth
      obtain ⟨gap, hsep, hgap⟩ := separator_eq indent depth
      simp only [writeItems, hsep, List.length_cons, List.length_append] at hfuel
      obtain ⟨g, rfl⟩ : ∃ g, fuel = g + 1 := ⟨fuel - 1, by omega⟩
      have hread' : ∀ tail, Ends tail →
          readValue limit g (writeValue indent depth v' ++ tail) = .ok (v', tail) :=
        fun tail htail => readValue_writeValue indent v' depth g tail hv' hwithin htail (by omega)
      have hitems := readItems_writeItems indent vs depth below g v' (writeValue indent depth v')
        rest hothers hwithins (by omega) hread'
      rw [writeItems, hsep]
      simp only [List.cons_append, List.append_assoc]
      rw [readItems_more (hread _ (ends_cons (by decide))) (skipSpace_cons (by decide)),
        skipSpace_append hgap (by simpa [hhead] using hspace), hitems, Reading.as_ok]

theorem readEntries_writeEntries (indent : Option Nat) : ∀ (es : List (Key × Value))
    (depth below fuel : Nat) (name : String) (v : Value) (rest : List Char),
      (∀ e ∈ es, ∃ s, e.1 = .text s) → (∀ e ∈ es, Portable e.2) → (∀ e ∈ es, Within limit e.2) →
      Portable v →
      (writeEntries indent depth es).length < fuel →
      (∀ tail, Ends tail →
        readValue limit fuel (writeValue indent depth v ++ tail) = .ok (v, tail)) →
      readEntries limit (fuel + 1) (writeText name.toList ++ (':' :: ' ' ::
        (writeValue indent depth v ++ (writeEntries indent depth es ++
          (lineBreak indent below ++ '\x7d' :: rest))))) = .ok ((.text name, v) :: es, rest)
  | [], depth, below, fuel, name, v, rest, _, _, _, hv, _, hread => by
      rw [writeEntries, List.nil_append]
      have hvalue := hread (lineBreak indent below ++ '\x7d' :: rest) (ends_lineBreak (by decide))
      rw [← skipSpace_blank hv] at hvalue
      exact readEntries_last hvalue (skipSpace_lineBreak (by decide))
  | (k, v') :: es, depth, below, fuel, name, v, rest, hkeys, hvalues, hwithins, hv, hfuel,
      hread => by
      obtain ⟨⟨name', rfl⟩, hnames⟩ := List.forall_mem_cons.mp hkeys
      obtain ⟨hv', hothers⟩ := List.forall_mem_cons.mp hvalues
      obtain ⟨hwithin, hwithins⟩ := List.forall_mem_cons.mp hwithins
      obtain ⟨gap, hsep, hgap⟩ := separator_eq indent depth
      simp only [writeEntries, hsep, List.length_cons, List.length_append] at hfuel
      obtain ⟨g, rfl⟩ : ∃ g, fuel = g + 1 := ⟨fuel - 1, by omega⟩
      have hread' : ∀ tail, Ends tail →
          readValue limit g (writeValue indent depth v' ++ tail) = .ok (v', tail) :=
        fun tail htail => readValue_writeValue indent v' depth g tail hv' hwithin htail (by omega)
      have hentries := readEntries_writeEntries indent es depth below g name' v' rest hnames
        hothers hwithins hv' (by omega) hread'
      rw [writeEntries, hsep, keyText]
      simp only [List.cons_append, List.append_assoc, List.nil_append]
      have hvalue := hread (',' :: (gap ++ (writeText name'.toList ++ (':' :: ' ' ::
        (writeValue indent depth v' ++ (writeEntries indent depth es ++
          (lineBreak indent below ++ '\x7d' :: rest))))))) (ends_cons (by decide))
      rw [← skipSpace_blank hv] at hvalue
      rw [readEntries_more hvalue (skipSpace_cons (by decide)),
        skipSpace_append hgap (by simp [writeText, isSpace]), hentries, Reading.as_ok]
end

/-- A document that was written is read as the value that was written, also with space behind it. -/
theorem readWithin_document (indent : Option Nat) {v : Value} (hv : Portable v)
    (hwithin : Within limit v) (hgap : ∀ c ∈ gap, isSpace c = true) :
    readWithin limit ((write indent v).toList ++ gap) = .ok v := by
  obtain ⟨c, t, hhead, hspace, -⟩ := head_writeValue hv indent 0
  have hread := readValue_writeValue indent v 0 ((writeValue indent 0 v ++ gap).length + 1) gap hv
    hwithin (ends_space hgap) (by rw [List.length_append]; omega)
  have hskip : skipSpace (writeValue indent 0 v ++ gap) = writeValue indent 0 v ++ gap := by
    rw [hhead]
    exact skipSpace_cons hspace
  have hrest : skipSpace gap = [] := by
    rw [← List.append_nil gap, skipSpace_append hgap (by simp)]
  rw [readWithin, write, String.toList_ofList, hskip, hread]
  dsimp only
  rw [if_pos hrest]

theorem readWithin_write (indent : Option Nat) {v : Value} (hv : Portable v)
    (hgap : ∀ c ∈ gap, isSpace c = true) :
    readWithin none ((write indent v).toList ++ gap) = .ok v :=
  readWithin_document indent hv hv.within hgap

end Json

end Splice
