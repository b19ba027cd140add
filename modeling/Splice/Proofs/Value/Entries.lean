import Splice.Value

namespace Splice

theorem Key.same_iff {a b : Key} : a.same b = true ↔ a.meaning = b.meaning := by
  simp [same]

theorem Key.meaning_eq_text_iff {k : Key} {s : String} : k.meaning = .text s ↔ k = .text s := by
  cases k with
  | float d => cases h : d.whole? <;> simp [meaning, h]
  | _ => simp [meaning]

namespace Entries

def meanings (m : Entries α) : List Key.Meaning := m.map (·.1.meaning)

/-- No key comes twice. -/
def Distinct (m : Entries α) : Prop := m.meanings.Nodup

variable {α : Type} {m : Entries α} {k l : Key} {v : α}

@[simp] theorem meanings_nil : meanings ([] : Entries α) = [] := rfl

@[simp] theorem meanings_cons (e : Key × α) (m : Entries α) :
    meanings (e :: m) = e.1.meaning :: meanings m := rfl

@[simp] theorem get?_nil (k : Key) : get? ([] : Entries α) k = none := rfl

theorem get?_cons (e : Key × α) (m : Entries α) (k : Key) :
    get? (e :: m) k = if e.1.meaning = k.meaning then some e.2 else get? m k := by
  by_cases h : e.1.meaning = k.meaning <;> simp [get?, Key.same, h]

theorem get?_congr (h : k.meaning = l.meaning) : get? m k = get? m l := by
  induction m with
  | nil => rfl
  | cons e m ih => rw [get?_cons, get?_cons, h, ih]

theorem isSome_get?_iff : (get? m k).isSome = true ↔ k.meaning ∈ meanings m := by
  induction m with
  | nil => simp
  | cons e m ih =>
      by_cases h : e.1.meaning = k.meaning
      · simp [get?_cons, h]
      · simp [get?_cons, h, ih, Ne.symm h]

theorem get?_eq_none_iff : get? m k = none ↔ k.meaning ∉ meanings m := by
  rw [← isSome_get?_iff]
  simp

theorem mem_of_get? (h : get? m k = some v) : ∃ e ∈ m, e.1.meaning = k.meaning ∧ e.2 = v := by
  induction m with
  | nil => cases h
  | cons e m ih =>
      rw [get?_cons] at h
      by_cases hk : e.1.meaning = k.meaning
      · rw [if_pos hk] at h
        exact ⟨e, List.mem_cons_self, hk, Option.some.inj h⟩
      · rw [if_neg hk] at h
        obtain ⟨d, hd, hkey, hvalue⟩ := ih h
        exact ⟨d, List.mem_cons_of_mem _ hd, hkey, hvalue⟩

theorem isSome_get?_text_iff {s : String} :
    (get? m (.text s)).isSome = true ↔ .text s ∈ m.map (·.1) := by
  rw [isSome_get?_iff, meanings, List.mem_map, List.mem_map]
  constructor
  · rintro ⟨e, he, hkey⟩
    exact ⟨e, he, Key.meaning_eq_text_iff.mp hkey⟩
  · rintro ⟨e, he, hkey⟩
    exact ⟨e, he, congrArg Key.meaning hkey⟩

theorem insert_cons_of_eq {e : Key × α} (h : e.1.meaning = k.meaning) (m : Entries α)
    (v : α) : insert (e :: m) k v = (e.1, v) :: m :=
  if_pos (Key.same_iff.mpr h)

theorem insert_cons_of_ne {e : Key × α} (h : e.1.meaning ≠ k.meaning) (m : Entries α)
    (v : α) : insert (e :: m) k v = e :: insert m k v :=
  if_neg fun hsame => h (Key.same_iff.mp hsame)

theorem get?_insert (m : Entries α) (k : Key) (v : α) (l : Key) :
    get? (insert m k v) l = if k.meaning = l.meaning then some v else get? m l := by
  induction m with
  | nil => rw [insert, get?_cons]
  | cons e m ih =>
      by_cases he : e.1.meaning = k.meaning
      · rw [insert_cons_of_eq he, get?_cons, get?_cons, he]
        by_cases hl : k.meaning = l.meaning <;> simp [hl]
      · rw [insert_cons_of_ne he, get?_cons, get?_cons, ih]
        by_cases hl : e.1.meaning = l.meaning
        · have hne : k.meaning ≠ l.meaning := fun h => he (hl.trans h.symm)
          simp [hl, hne]
        · simp [hl]

theorem get?_insert_self (m : Entries α) (k : Key) (v : α) : get? (insert m k v) k = some v := by
  simp [get?_insert]

theorem get?_insert_of_ne (h : k.meaning ≠ l.meaning) : get? (insert m k v) l = get? m l := by
  simp [get?_insert, h]

theorem insert_insert (m : Entries α) (k : Key) (v w : α) :
    insert (insert m k v) k w = insert m k w := by
  induction m with
  | nil => exact insert_cons_of_eq rfl [] w
  | cons e m ih =>
      by_cases he : e.1.meaning = k.meaning
      · have hv : (e.1, v).1.meaning = k.meaning := he
        rw [insert_cons_of_eq he, insert_cons_of_eq he, insert_cons_of_eq hv]
      · rw [insert_cons_of_ne he, insert_cons_of_ne he, insert_cons_of_ne he, ih]

theorem insert_of_get? (h : get? m k = some v) : insert m k v = m := by
  induction m with
  | nil => cases h
  | cons e m ih =>
      rw [get?_cons] at h
      by_cases he : e.1.meaning = k.meaning
      · rw [if_pos he, Option.some_inj] at h
        rw [insert_cons_of_eq he, ← h]
      · rw [if_neg he] at h
        rw [insert_cons_of_ne he, ih h]

theorem keys_insert (m : Entries α) (k : Key) (v : α) :
    (insert m k v).map (·.1) =
      if k.meaning ∈ meanings m then m.map (·.1) else m.map (·.1) ++ [k] := by
  induction m with
  | nil => rfl
  | cons e m ih =>
      by_cases he : e.1.meaning = k.meaning
      · simp [insert_cons_of_eq he, he]
      · by_cases hk : k.meaning ∈ meanings m <;> simp [insert_cons_of_ne he, ih, hk, Ne.symm he]

theorem mem_insert {e : Key × α} (h : e ∈ insert m k v) : e ∈ m ∨ e.2 = v := by
  induction m with
  | nil => exact .inr (by rw [List.mem_singleton.mp h])
  | cons d m ih =>
      by_cases hd : d.1.meaning = k.meaning
      · rw [insert_cons_of_eq hd] at h
        rcases List.mem_cons.mp h with rfl | h
        · exact .inr rfl
        · exact .inl (List.mem_cons_of_mem _ h)
      · rw [insert_cons_of_ne hd] at h
        rcases List.mem_cons.mp h with rfl | h
        · exact .inl List.mem_cons_self
        · exact (ih h).imp_left (List.mem_cons_of_mem _)

theorem Distinct.nil : Distinct ([] : Entries α) := List.nodup_nil

theorem distinct_cons_iff {e : Key × α} :
    Distinct (e :: m) ↔ e.1.meaning ∉ meanings m ∧ Distinct m :=
  List.nodup_cons

theorem meanings_eq_map (m : Entries α) : meanings m = (m.map (·.1)).map Key.meaning := by
  simp [meanings]

theorem Distinct.insert (h : Distinct m) (k : Key) (v : α) : Distinct (m.insert k v) := by
  rw [Distinct, meanings_eq_map] at h ⊢
  rw [keys_insert]
  by_cases hk : k.meaning ∈ meanings m
  · rw [if_pos hk]
    exact h
  · rw [if_neg hk, List.map_append, List.nodup_append]
    refine ⟨h, by simp, ?_⟩
    rintro a ha b hb rfl
    rw [← meanings_eq_map] at ha
    exact hk (List.mem_singleton.mp hb ▸ ha)

end Entries

end Splice
