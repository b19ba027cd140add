namespace Splice.Results

variable {α β ε ε' : Type}

theorem bind_ok_iff {x : Except ε α} {f : α → Except ε β} {b : β} :
    (x >>= f) = .ok b ↔ ∃ a, x = .ok a ∧ f a = .ok b := by
  cases x <;> simp [bind, Except.bind]

theorem map_ok_iff {f : α → β} {x : Except ε α} {b : β} :
    x.map f = .ok b ↔ ∃ a, x = .ok a ∧ f a = b := by
  cases x <;> simp [Except.map]

theorem mapError_ok_iff {f : ε → ε'} {x : Except ε α} {a : α} :
    x.mapError f = .ok a ↔ x = .ok a := by
  cases x with
  | ok b => constructor <;> rintro ⟨⟩ <;> rfl
  | error e => constructor <;> rintro ⟨⟩

theorem bind_error_iff {x : Except ε α} {f : α → Except ε β} {e : ε} :
    (x >>= f) = .error e ↔ x = .error e ∨ ∃ a, x = .ok a ∧ f a = .error e := by
  cases x <;> simp [bind, Except.bind]

theorem map_error_iff {f : α → β} {x : Except ε α} {e : ε} :
    x.map f = .error e ↔ x = .error e := by
  cases x <;> simp [Except.map]

theorem mapError_error (f : ε → ε') (e : ε) :
    (Except.error e : Except ε α).mapError f = .error (f e) := rfl

theorem mapError_error_iff {f : ε → ε'} {x : Except ε α} {e : ε'} :
    x.mapError f = .error e ↔ ∃ d, x = .error d ∧ f d = e := by
  cases x with
  | ok a =>
      constructor
      · intro h
        cases h
      · rintro ⟨d, h, -⟩
        cases h
  | error d =>
      constructor
      · intro h
        exact ⟨d, rfl, Except.error.inj h⟩
      · rintro ⟨d', h, rfl⟩
        cases h
        rfl

theorem mapM_error {f : α → Except ε β} {xs : List α} {e : ε} (h : xs.mapM f = .error e) :
    ∃ x ∈ xs, f x = .error e := by
  induction xs with
  | nil => cases h
  | cons x xs ih =>
      rw [List.mapM_cons] at h
      rcases bind_error_iff.mp h with hx | ⟨b, -, h⟩
      · exact ⟨x, List.mem_cons_self, hx⟩
      · rcases bind_error_iff.mp h with hxs | ⟨bs, -, h⟩
        · obtain ⟨y, hy, hfy⟩ := ih hxs
          exact ⟨y, List.mem_cons_of_mem _ hy, hfy⟩
        · cases h

theorem foldlM_map {f : β → α → Except ε β} {g : β → β}
    (h : ∀ b a, f (g b) a = (f b a).map g) (b : β) (xs : List α) :
    xs.foldlM f (g b) = (xs.foldlM f b).map g := by
  induction xs generalizing b with
  | nil => rfl
  | cons x xs ih =>
      rw [List.foldlM_cons, List.foldlM_cons, h]
      cases f b x with
      | error e => rfl
      | ok c => exact ih c

theorem toOption_eq_some_iff {x : Except ε α} {a : α} : x.toOption = some a ↔ x = .ok a := by
  cases x <;> simp [Except.toOption]

theorem map_cons_ok_iff {f : α → Except ε β} {x : α} {xs : List α} {bs : List β} :
    (x :: xs).map f = bs.map .ok ↔
      ∃ b cs, bs = b :: cs ∧ f x = .ok b ∧ xs.map f = cs.map .ok := by
  constructor
  · intro h
    cases bs with
    | nil => cases h
    | cons b bs =>
        obtain ⟨hx, hxs⟩ := List.cons.inj h
        exact ⟨b, bs, rfl, hx, hxs⟩
  · rintro ⟨b, cs, rfl, hx, hxs⟩
    rw [List.map_cons, List.map_cons, hx, hxs]

theorem mem_iff_of_map_eq {f : α → Except ε β} {xs : List α} {bs : List β} {b : β}
    (h : xs.map f = bs.map .ok) : b ∈ bs ↔ ∃ x ∈ xs, f x = .ok b := by
  rw [← List.mem_map, h, List.mem_map]
  simp

end Splice.Results
