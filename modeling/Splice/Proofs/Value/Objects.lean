import Splice.Proofs.Value.Layers
import Splice.Value.Object

namespace Splice

/-! ### Labels -/

mutual
def Object.labels : Object → List Label
  | .scalar _ => []
  | .list os => Object.labelsOf os
  | .map label es => label.toList ++ Entries.labels es

def Object.labelsOf : List Object → List Label
  | [] => []
  | o :: os => o.labels ++ Object.labelsOf os

def Entries.labels : Entries Object → List Label
  | [] => []
  | (_, o) :: es => o.labels ++ Entries.labels es
end

namespace Entries

variable {α β : Type} {m n : Objects} {k : Key} {o : Object} {label : Label}

theorem get?_map (f : α → β) (m : Entries α) (k : Key) :
    get? (m.map fun e => (e.1, f e.2)) k = (m.get? k).map f := by
  induction m with
  | nil => rfl
  | cons e m ih =>
      rw [List.map_cons, get?_cons, get?_cons, ih]
      split <;> rfl

theorem insert_map (f : α → β) (m : Entries α) (k : Key) (v : α) :
    insert (m.map fun e => (e.1, f e.2)) k (f v) = (m.insert k v).map fun e => (e.1, f e.2) := by
  induction m with
  | nil => rfl
  | cons e m ih =>
      by_cases he : e.1.meaning = k.meaning
      · rw [insert_cons_of_eq he, List.map_cons, insert_cons_of_eq (by exact he)]
        rfl
      · rw [insert_cons_of_ne he, List.map_cons, insert_cons_of_ne (by exact he), ih]
        rfl

/-! ### Values -/

theorem values_eq_map (m : Objects) : m.values = m.map fun e => (e.1, e.2.value) := by
  induction m with
  | nil => rfl
  | cons e m ih => rw [values, ih]; rfl

theorem keys_values (m : Objects) : m.values.map (·.1) = m.map (·.1) := by
  rw [values_eq_map, List.map_map]
  rfl

theorem get?_values (m : Objects) (k : Key) : m.values.get? k = (m.get? k).map Object.value := by
  rw [values_eq_map, get?_map]

theorem values_insert (m : Objects) (k : Key) (o : Object) :
    values (m.insert k o) = m.values.insert k o.value := by
  rw [values_eq_map, values_eq_map, insert_map]

theorem values_ofList (es : List (Key × Object)) : values (ofList es) = ofList (values es) := by
  have hfold (m : Objects) : values (es.foldl (fun m e => insert m e.1 e.2) m) =
      (values es).foldl (fun m e => insert m e.1 e.2) (values m) := by
    induction es generalizing m with
    | nil => rfl
    | cons e es ih => rw [List.foldl_cons, ih, values_insert, values, List.foldl_cons]
  exact hfold []

end Entries

namespace Object

mutual
theorem value_ofValue : ∀ v : Value, (ofValue v).value = v
  | .null | .bool _ | .int _ | .float _ | .moment _ | .text _ => rfl
  | .list vs => congrArg Value.list (valuesOf_ofValues vs)
  | .map es => congrArg Value.map (values_ofEntries es)

theorem valuesOf_ofValues : ∀ vs : List Value, valuesOf (ofValues vs) = vs
  | [] => rfl
  | v :: vs => by rw [ofValues, valuesOf, value_ofValue v, valuesOf_ofValues vs]

theorem values_ofEntries : ∀ es : List (Key × Value), (ofEntries es).values = es
  | [] => rfl
  | (k, v) :: es => by rw [ofEntries, Entries.values, value_ofValue v, values_ofEntries es]
end

mutual
theorem labels_ofValue : ∀ v : Value, (ofValue v).labels = []
  | .null | .bool _ | .int _ | .float _ | .moment _ | .text _ => rfl
  | .list vs => labelsOf_ofValues vs
  | .map es => labels_ofEntries es

theorem labelsOf_ofValues : ∀ vs : List Value, labelsOf (ofValues vs) = []
  | [] => rfl
  | v :: vs => by rw [ofValues, labelsOf, labels_ofValue v, labelsOf_ofValues vs]; rfl

theorem labels_ofEntries : ∀ es : List (Key × Value), (ofEntries es).labels = []
  | [] => rfl
  | (k, v) :: es => by rw [ofEntries, Entries.labels, labels_ofValue v, labels_ofEntries es]; rfl
end

end Object

/-! ### Merging -/

theorem Object.over_of_not_map {o : Object} (h : o.value.isMap = false) (old : Option Object) :
    o.over old = o := by
  cases o with
  | map label es => cases h
  | _ => simp [Object.over]

theorem Object.map_over_of_not_map {label : Option Label} {es : Objects} {old : Option Object}
    (h : ∀ u ∈ old, u.value.isMap = false) : (Object.map label es).over old = .map label es := by
  cases old with
  | none => simp [Object.over]
  | some u =>
      cases u with
      | map l m => cases h _ rfl
      | _ => simp [Object.over]

mutual
theorem Object.value_over : ∀ (o : Object) (old : Option Object),
    (o.over old).value = o.value.over (old.map Object.value)
  | .scalar k, old => by
      have hscalar : (Object.scalar k).value.isMap = false := by cases k <;> rfl
      rw [Object.over_of_not_map hscalar, Value.over_of_not_map hscalar]
  | .list os, old => by
      rw [Object.over_of_not_map rfl]
      exact (Value.over_of_not_map rfl _).symm
  | .map label es, none => by
      rw [Object.map_over_of_not_map (by simp)]
      exact (Value.over_none _).symm
  | .map label es, some (.scalar k) => by
      have hscalar : (Object.scalar k).value.isMap = false := by cases k <;> rfl
      rw [Object.map_over_of_not_map (by simpa using hscalar)]
      exact (Value.map_over_of_not_map hscalar _).symm
  | .map label es, some (.list os) => by
      rw [Object.map_over_of_not_map (by rintro _ ⟨⟩; rfl)]
      exact (Value.map_over_of_not_map rfl _).symm
  | .map label es, some (.map l m) => by
      rw [Object.over, Object.value, Entries.values_overlay m es]
      exact (Value.map_over_map _ _).symm

theorem Entries.values_overlay : ∀ (base es : Objects),
    Entries.values (base.overlay es) = Mapping.merge base.values es.values
  | base, [] => by
      rw [Entries.overlay]
      exact (Mapping.merge_nil _).symm
  | base, (k, o) :: es => by
      rw [Entries.overlay, Entries.values_overlay _ es, Entries.values_insert,
        Object.value_over o, Entries.values, Mapping.merge_cons, Entries.get?_values]
end

/-! ### Changes -/

namespace Entries

variable {m n n' : Objects} {k : Key} {o x : Object} {label : Label}

theorem renewed_eq_map (label : Label) (n m : Objects) :
    renewed label n m = m.map fun e => (e.1, e.2.renewed label n) := by
  induction m with
  | nil => rfl
  | cons e m ih => rw [renewed, ih]; rfl

theorem keys_after (m : Objects) (changed : Option (Label × Objects)) :
    (m.after changed).map (·.1) = m.map (·.1) := by
  cases changed with
  | none => rfl
  | some c =>
      rw [after, renewed_eq_map, List.map_map]
      rfl

theorem labels_sublist_of_get? (h : m.get? k = some o) : o.labels.Sublist m.labels := by
  induction m with
  | nil => cases h
  | cons e m ih =>
      rw [get?_cons] at h
      rw [labels]
      split at h
      · cases h
        exact List.sublist_append_left _ _
      · exact (ih h).trans (List.sublist_append_right _ _)

theorem labels_insert_sublist (h : x.labels.Sublist (((m.get? k).map Object.labels).getD [])) :
    (labels (m.insert k x)).Sublist m.labels := by
  induction m with
  | nil =>
      rw [insert, labels]
      exact h.append (List.Sublist.refl _)
  | cons e m ih =>
      by_cases he : e.1.meaning = k.meaning
      · rw [get?_cons, if_pos he] at h
        rw [insert_cons_of_eq he, labels, labels]
        exact h.append (List.Sublist.refl _)
      · rw [get?_cons, if_neg he] at h
        rw [insert_cons_of_ne he, labels, labels]
        exact (List.Sublist.refl _).append (ih h)

end Entries

mutual
theorem Object.renewed_of_not_mem {label : Label} {n : Objects} :
    ∀ o : Object, label ∉ o.labels → o.renewed label n = o
  | .scalar k, _ => rfl
  | .list os, h => congrArg Object.list (Object.renewedItems_of_not_mem os h)
  | .map l es, h => by
      rw [Object.labels, List.mem_append, not_or] at h
      have hne : l ≠ some label := by
        rintro rfl
        exact h.1 (by simp)
      rw [Object.renewed, if_neg hne, Entries.renewed_of_not_mem es h.2]

theorem Object.renewedItems_of_not_mem {label : Label} {n : Objects} :
    ∀ os : List Object, label ∉ Object.labelsOf os → Object.renewedItems label n os = os
  | [], _ => rfl
  | o :: os, h => by
      rw [Object.labelsOf, List.mem_append, not_or] at h
      rw [Object.renewedItems, Object.renewed_of_not_mem o h.1,
        Object.renewedItems_of_not_mem os h.2]

theorem Entries.renewed_of_not_mem {label : Label} {n : Objects} :
    ∀ m : Objects, label ∉ m.labels → Entries.renewed label n m = m
  | [], _ => rfl
  | (k, o) :: es, h => by
      rw [Entries.labels, List.mem_append, not_or] at h
      rw [Entries.renewed, Object.renewed_of_not_mem o h.1, Entries.renewed_of_not_mem es h.2]
end

mutual
/-- Of two changes to one mapping the second counts. -/
theorem Object.renewed_renewed {label : Label} {n n' : Objects} :
    ∀ o : Object, (o.renewed label n).renewed label n' = o.renewed label n'
  | .scalar k => rfl
  | .list os => congrArg Object.list (Object.renewedItems_renewedItems os)
  | .map l es => by
      rw [Object.renewed, Object.renewed, Object.renewed]
      by_cases hl : l = some label
      · rw [if_pos hl, if_pos hl]
      · rw [if_neg hl, if_neg hl, if_neg hl, Entries.renewed_renewed es]

theorem Object.renewedItems_renewedItems {label : Label} {n n' : Objects} :
    ∀ os : List Object, Object.renewedItems label n' (Object.renewedItems label n os) =
      Object.renewedItems label n' os
  | [] => rfl
  | o :: os => by
      rw [Object.renewedItems, Object.renewedItems, Object.renewedItems, Object.renewed_renewed o,
        Object.renewedItems_renewedItems os]

theorem Entries.renewed_renewed {label : Label} {n n' : Objects} :
    ∀ m : Objects, Entries.renewed label n' (Entries.renewed label n m) =
      Entries.renewed label n' m
  | [] => rfl
  | (k, o) :: es => by
      rw [Entries.renewed, Entries.renewed, Entries.renewed, Object.renewed_renewed o,
        Entries.renewed_renewed es]
end

namespace Entries

variable {m n : Objects} {k : Key} {o x : Object} {label : Label}
  {changed changed' : Option (Label × Objects)}

/-- An entry that is written afterwards does not show a change before. -/
theorem after_insert_insert (m : Objects) (k : Key) (x y : Object) :
    insert ((m.insert k x).after changed) k y = (m.after changed).insert k y := by
  cases changed with
  | none => exact insert_insert m k x y
  | some c =>
      rw [after, after, renewed_eq_map, ← insert_map, insert_insert, ← renewed_eq_map]

theorem after_after (m : Objects) (h : changed.map (·.1) = changed'.map (·.1)) :
    (m.after changed).after changed' = m.after changed' := by
  cases changed with
  | none =>
      cases changed' with
      | none => rfl
      | some c' => cases h
  | some c =>
      cases changed' with
      | none => cases h
      | some c' =>
          obtain ⟨label, n⟩ := c
          obtain ⟨_, n'⟩ := c'
          obtain rfl := Option.some.inj h
          exact renewed_renewed m

/-- A change to a mapping that stands inside of one entry, and nowhere else, shows in no other entry. -/
theorem insert_renewed (hone : m.labels.count label ≤ 1) (hget : m.get? k = some o)
    (hlabel : label ∈ o.labels) (n : Objects) (x : Object) :
    insert (renewed label n m) k x = m.insert k x := by
  induction m with
  | nil => cases hget
  | cons e m ih =>
      rw [labels, List.count_append] at hone
      rw [get?_cons] at hget
      rw [renewed]
      by_cases he : e.1.meaning = k.meaning
      · rw [if_pos he, Option.some_inj] at hget
        have hpos : 0 < e.2.labels.count label := List.count_pos_iff.mpr (hget ▸ hlabel)
        have habsent : label ∉ labels m := List.count_eq_zero.mp (by omega)
        rw [insert_cons_of_eq (by exact he), insert_cons_of_eq he, renewed_of_not_mem m habsent]
      · rw [if_neg he] at hget
        have hpos : 0 < (labels m).count label :=
          List.count_pos_iff.mpr ((labels_sublist_of_get? hget).subset hlabel)
        have habsent : label ∉ e.2.labels := List.count_eq_zero.mp (by omega)
        rw [insert_cons_of_ne (by exact he), insert_cons_of_ne he, ih (by omega) hget,
          Object.renewed_of_not_mem e.2 habsent]

end Entries

end Splice
