import Splice.Outcome

namespace Splice.Outcome

variable {α β : Type}

theorem result_bind (x : Outcome α) (f : α → Outcome β) :
    (x >>= f).result = x.result >>= fun a => (f a).result := by
  cases h : x.result with
  | error e => rw [bind_error h]; rfl
  | ok a => rw [bind_ok h]; rfl

theorem result_bind_ok_iff {x : Outcome α} {f : α → Outcome β} {b : β} :
    (x >>= f).result = .ok b ↔ ∃ a, x.result = .ok a ∧ (f a).result = .ok b := by
  rw [result_bind]
  constructor
  · intro h
    cases hx : x.result with
    | error e => rw [hx] at h; cases h
    | ok a => rw [hx] at h; exact ⟨a, rfl, h⟩
  · rintro ⟨a, hx, hf⟩
    rw [hx]
    exact hf

theorem result_bind_error_iff {x : Outcome α} {f : α → Outcome β} {e : Fault} :
    (x >>= f).result = .error e ↔
      x.result = .error e ∨ ∃ a, x.result = .ok a ∧ (f a).result = .error e := by
  rw [result_bind]
  constructor
  · intro h
    cases hx : x.result with
    | error d => rw [hx] at h; cases h; exact .inl rfl
    | ok a => rw [hx] at h; exact .inr ⟨a, rfl, h⟩
  · rintro (hx | ⟨a, hx, hf⟩)
    · rw [hx]; rfl
    · rw [hx]; exact hf

theorem bind_return (x : Outcome α) (f : α → β) :
    (x >>= fun a => pure (f a)) = ⟨x.trace, x.result.map f⟩ := by
  cases h : x.result with
  | error e => rw [bind_error h]; rfl
  | ok a => rw [bind_ok h, pure_eq, List.append_nil]; rfl

theorem bind_congr_ok {x : Outcome α} {f g : α → Outcome β}
    (h : ∀ a, x.result = .ok a → f a = g a) : x >>= f = x >>= g := by
  cases hx : x.result with
  | error e => rw [bind_error hx, bind_error hx]
  | ok a => rw [bind_ok hx, bind_ok hx, h a hx]

theorem trace_prefix_bind (x : Outcome α) (f : α → Outcome β) : x.trace <+: (x >>= f).trace := by
  cases h : x.result with
  | error e =>
      have heq : (x >>= f).trace = x.trace := congrArg trace (bind_error h f)
      exact ⟨[], (List.append_nil _).trans heq.symm⟩
  | ok a => rw [bind_ok h]; exact List.prefix_append _ _

theorem trace_suffix_bind {x : Outcome α} {a : α} (h : x.result = .ok a) (f : α → Outcome β) :
    (f a).trace <:+ (x >>= f).trace := by
  rw [bind_ok h]
  exact List.suffix_append _ _

theorem emit_bind (e : Event) (f : Unit → Outcome β) :
    emit e >>= f = ⟨e :: (f ()).trace, (f ()).result⟩ :=
  bind_ok (x := emit e) rfl f

theorem log_bind (level : Log.Level) (origin : Log.Origin) (message : String)
    (f : Unit → Outcome β) :
    log level origin message >>= f =
      ⟨.record ⟨level, origin.logger, message⟩ :: (f ()).trace, (f ()).result⟩ :=
  emit_bind _ f

theorem records_bind {x : Outcome α} {a : α} (h : x.result = .ok a) (f : α → Outcome β) :
    (x >>= f).records = x.records ++ (f a).records := by
  rw [bind_ok h]
  exact List.filterMap_append

theorem lift_bind_ok {r : Except Fault α} {a : α} (h : r = .ok a) (f : α → Outcome β) :
    (liftM r >>= f) = f a := by
  subst h
  exact pure_bind a f

theorem lift_bind_error {r : Except Fault α} {e : Fault} (h : r = .error e) (f : α → Outcome β) :
    (liftM r >>= f) = .fail e := by
  subst h
  rfl

theorem units_mapFault (f : Fault → Fault) (x : Outcome α) : (x.mapFault f).units = x.units := rfl

theorem mem_units_bind {x : Outcome α} {f : α → Outcome β} {u : SourceUnit} :
    u ∈ (x >>= f).units ↔ u ∈ x.units ∨ ∃ a, x.result = .ok a ∧ u ∈ (f a).units := by
  cases h : x.result with
  | error e => simp [bind_error h, units]
  | ok a => simp [bind_ok h, units]

/-- Only the fault `e` makes room for a difference. -/
theorem bind_eq_of_ne {e : Fault} {x y : Outcome α} {f g : α → Outcome β}
    (hx : x.result ≠ .error e → y = x)
    (hf : ∀ a, x.result = .ok a → (f a).result ≠ .error e → g a = f a)
    (h : (x >>= f).result ≠ .error e) : y >>= g = x >>= f := by
  have hne : x.result ≠ .error e := fun he => h (result_bind_error_iff.mpr (.inl he))
  rw [hx hne]
  cases hr : x.result with
  | error d => rw [bind_error hr, bind_error hr]
  | ok a =>
      have hfa : (f a).result ≠ .error e := fun he => h (result_bind_error_iff.mpr (.inr ⟨a, hr, he⟩))
      rw [bind_ok hr, bind_ok hr, hf a hr hfa]

def fails (x : Outcome α) : Bool :=
  match x.result with
  | .ok _ => false
  | .error _ => true

theorem fails_iff {x : Outcome α} : x.fails = true ↔ ∃ e, x.result = .error e := by
  unfold fails
  cases x.result with
  | ok a => simp
  | error e => simp

theorem forM_error_iff {xs : List α} {f : α → Outcome Unit} {e : Fault} :
    (forM xs f).result = .error e ↔
      ∃ x, xs.find? (fun x => (f x).fails) = some x ∧ (f x).result = .error e := by
  induction xs with
  | nil =>
      constructor
      · intro h
        cases h
      · rintro ⟨x, h, _⟩
        cases h
  | cons x xs ih =>
      rw [List.forM_cons, result_bind_error_iff, List.find?_cons]
      cases hx : (f x).result with
      | error d =>
          have hfails : (f x).fails = true := by rw [fails, hx]
          rw [hfails]
          constructor
          · rintro (h | ⟨_, h, _⟩)
            · exact ⟨x, rfl, hx.trans h⟩
            · cases h
          · rintro ⟨y, hy, h⟩
            cases hy
            exact .inl (hx.symm.trans h)
      | ok a =>
          have hfails : (f x).fails = false := by rw [fails, hx]
          rw [hfails]
          constructor
          · rintro (h | ⟨_, _, h⟩)
            · cases h
            · exact ih.mp h
          · intro h
            exact .inr ⟨a, rfl, ih.mpr h⟩

theorem forM_cut {before : List α} {x : α} {f : α → Outcome Unit} {e : Fault}
    (hbefore : (forM before f).result = .ok ()) (hx : (f x).result = .error e) (after : List α) :
    forM (before ++ x :: after) f = ⟨(forM before f).trace ++ (f x).trace, .error e⟩ := by
  rw [List.forM_append, List.forM_cons, bind_ok hbefore, bind_error hx]

theorem forM_congr {xs : List α} {f g : α → Outcome Unit} (h : ∀ x ∈ xs, f x = g x) :
    forM xs f = forM xs g := by
  induction xs with
  | nil => rfl
  | cons x xs ih =>
      obtain ⟨hx, hxs⟩ := List.forall_mem_cons.mp h
      rw [List.forM_cons, List.forM_cons, hx, ih hxs]

theorem forM_cut_congr {before : List α} {x : α} {f g : α → Outcome Unit}
    (hbefore : (forM before f).result = .ok ()) (hx : (f x).fails = true)
    (hfg : ∀ y ∈ before ++ [x], g y = f y) (after : List α) :
    forM (before ++ x :: after) g = forM (before ++ x :: after) f := by
  have hsame : forM before g = forM before f :=
    forM_congr fun y hy => hfg y (List.mem_append_left _ hy)
  have hsamex : g x = f x := hfg x (List.mem_append_right _ (List.mem_singleton_self x))
  obtain ⟨e, he⟩ := fails_iff.mp hx
  rw [forM_cut hbefore he, forM_cut (hsame ▸ hbefore) (hsamex ▸ he), hsame, hsamex]

theorem given_or_first_error (f : α → Except Fault β) (xs : List α) :
    (∃ bs : List β, xs.map f = bs.map .ok) ∨
      ∃ before x after, ∃ bs : List β, ∃ e, xs = before ++ x :: after ∧
        before.map f = bs.map .ok ∧ f x = .error e := by
  induction xs with
  | nil => exact .inl ⟨[], rfl⟩
  | cons x xs ih =>
      cases hx : f x with
      | error e => exact .inr ⟨[], x, xs, [], e, rfl, rfl, hx⟩
      | ok b =>
          rcases ih with ⟨bs, hbs⟩ | ⟨before, y, after, bs, e, rfl, hbs, hy⟩
          · exact .inl ⟨b :: bs, by rw [List.map_cons, hx, hbs, List.map_cons]⟩
          · refine .inr ⟨x :: before, y, after, b :: bs, e, rfl, ?_, hy⟩
            rw [List.map_cons, hx, hbs, List.map_cons]

/-- Run the parts in turn and put what they give one after the other. -/
def concat : List (Outcome (List α)) → Outcome (List α)
  | [] => pure []
  | x :: xs => do return (← x) ++ (← concat xs)

theorem concat_append (xs ys : List (Outcome (List α))) :
    concat (xs ++ ys) = do return (← concat xs) ++ (← concat ys) := by
  induction xs with
  | nil => simp only [List.nil_append, concat, pure_bind, bind_pure]
  | cons x xs ih => simp only [List.cons_append, concat, ih, bind_assoc, pure_bind, List.append_assoc]

theorem concat_singleton (x : Outcome (List α)) : concat [x] = x := by
  simp only [concat, pure_bind, List.append_nil, bind_pure]

theorem concat_append_eq_of_ne {e : Fault} {xs ys xs' ys' : List (Outcome (List α))}
    (hx : (concat xs).result ≠ .error e → concat xs' = concat xs)
    (hy : (concat ys).result ≠ .error e → concat ys' = concat ys)
    (h : (concat (xs ++ ys)).result ≠ .error e) : concat (xs' ++ ys') = concat (xs ++ ys) := by
  rw [concat_append] at h
  rw [concat_append, concat_append]
  exact bind_eq_of_ne hx (fun _ _ ha => bind_eq_of_ne hy (fun _ _ _ => rfl) ha) h

theorem concat_map_eq_of_ne {e : Fault} {f g : β → Outcome (List α)} {bs : List β}
    (hfg : ∀ b ∈ bs, (f b).result ≠ .error e → g b = f b)
    (h : (concat (bs.map f)).result ≠ .error e) : concat (bs.map g) = concat (bs.map f) := by
  induction bs with
  | nil => rfl
  | cons b bs ih =>
      obtain ⟨hb, hbs⟩ := List.forall_mem_cons.mp hfg
      exact bind_eq_of_ne hb (fun _ _ ha => bind_eq_of_ne (ih hbs) (fun _ _ _ => rfl) ha) h

/-- The parts that are run: those up to the first that fails, and that one. -/
def ran : List (Outcome α) → List (Outcome α)
  | [] => []
  | x :: xs => match x.result with
    | .ok _ => x :: ran xs
    | .error _ => [x]

/-- `x` is the parts in turn: it succeeds if all of them do and then gives what they give, it fails
as the first of them that fails, and it does what they do up to there. -/
structure Joins (x : Outcome (List α)) (parts : List (Outcome (List α))) : Prop where
  ok_iff : ∀ out, x.result = .ok out ↔
    ∃ outs : List (List α), parts.map result = outs.map .ok ∧ out = outs.flatten
  error_iff : ∀ e, x.result = .error e ↔ ∃ before part after, parts = before ++ part :: after ∧
    (∀ y ∈ before, ∃ out, y.result = .ok out) ∧ part.result = .error e
  trace_eq : x.trace = (ran parts).flatMap trace
  requests_eq : x.requests = (ran parts).flatMap requests

theorem concat_ok_iff (parts : List (Outcome (List α))) (out : List α) :
    (concat parts).result = .ok out ↔
      ∃ outs : List (List α), parts.map result = outs.map .ok ∧ out = outs.flatten := by
  induction parts generalizing out with
  | nil =>
      constructor
      · intro h
        exact ⟨[], rfl, (Except.ok.inj h).symm⟩
      · rintro ⟨outs, houts, rfl⟩
        cases outs with
        | nil => rfl
        | cons a outs => simp at houts
  | cons x xs ih =>
      rw [concat, result_bind_ok_iff]
      constructor
      · rintro ⟨a, ha, h⟩
        obtain ⟨b, hb, h⟩ := result_bind_ok_iff.mp h
        obtain ⟨outs, houts, rfl⟩ := (ih b).mp hb
        cases h
        exact ⟨a :: outs, by simp [ha, houts], rfl⟩
      · rintro ⟨outs, houts, rfl⟩
        cases outs with
        | nil => simp at houts
        | cons a outs =>
            simp only [List.map_cons, List.cons.injEq] at houts
            have hxs := (ih outs.flatten).mpr ⟨outs, houts.2, rfl⟩
            exact ⟨a, houts.1, result_bind_ok_iff.mpr ⟨_, hxs, rfl⟩⟩

theorem concat_error_iff (parts : List (Outcome (List α))) (e : Fault) :
    (concat parts).result = .error e ↔ ∃ before part after, parts = before ++ part :: after ∧
      (∀ y ∈ before, ∃ out, y.result = .ok out) ∧ part.result = .error e := by
  induction parts with
  | nil =>
      constructor
      · intro h
        cases h
      · rintro ⟨before, part, after, h, _⟩
        simp at h
  | cons x xs ih =>
      rw [concat, result_bind_error_iff]
      constructor
      · rintro (h | ⟨a, ha, h⟩)
        · exact ⟨[], x, xs, rfl, by simp, h⟩
        · rcases result_bind_error_iff.mp h with h | ⟨b, _, h⟩
          · obtain ⟨before, part, after, rfl, hbefore, hpart⟩ := ih.mp h
            refine ⟨x :: before, part, after, rfl, ?_, hpart⟩
            exact List.forall_mem_cons.mpr ⟨⟨a, ha⟩, hbefore⟩
          · cases h
      · rintro ⟨before, part, after, h, hbefore, hpart⟩
        cases before with
        | nil => cases h; exact .inl hpart
        | cons y before =>
            cases h
            obtain ⟨⟨a, ha⟩, hbefore⟩ := List.forall_mem_cons.mp hbefore
            have hxs := ih.mpr ⟨before, part, after, rfl, hbefore, hpart⟩
            exact .inr ⟨a, ha, result_bind_error_iff.mpr (.inl hxs)⟩

theorem trace_concat (parts : List (Outcome (List α))) :
    (concat parts).trace = (ran parts).flatMap trace := by
  induction parts with
  | nil => rfl
  | cons x xs ih =>
      cases hx : x.result with
      | error e => simp [concat, ran, hx, bind_error hx]
      | ok a =>
          rw [concat, bind_ok hx, ran, hx]
          cases hxs : (concat xs).result with
          | error e => simp [bind_error hxs, ih]
          | ok b => simp [bind_ok hxs, ih]

theorem ran_eq_self {parts : List (Outcome α)} (h : ∀ x ∈ parts, ∃ a, x.result = .ok a) :
    ran parts = parts := by
  induction parts with
  | nil => rfl
  | cons x xs ih =>
      obtain ⟨⟨a, ha⟩, hxs⟩ := List.forall_mem_cons.mp h
      rw [ran, ha]
      exact congrArg _ (ih hxs)

theorem part_ok {parts : List (Outcome (List α))} {out : List α}
    (h : (concat parts).result = .ok out) {x : Outcome (List α)} (hx : x ∈ parts) :
    ∃ a, x.result = .ok a := by
  obtain ⟨outs, houts, _⟩ := (concat_ok_iff parts out).mp h
  have hr : x.result ∈ outs.map Except.ok := houts ▸ List.mem_map_of_mem hx
  obtain ⟨a, _, ha⟩ := List.mem_map.mp hr
  exact ⟨a, ha.symm⟩

theorem part_trace {parts : List (Outcome (List α))} {out : List α}
    (h : (concat parts).result = .ok out) {x : Outcome (List α)} (hx : x ∈ parts) :
    x.trace <:+: (concat parts).trace := by
  rw [trace_concat, ran_eq_self fun y hy => part_ok h hy, List.flatMap_def]
  exact List.infix_of_mem_flatten (List.mem_map_of_mem hx)

theorem mem_concat {parts : List (Outcome (List α))} {out : List α}
    (h : (concat parts).result = .ok out) {a : α} (ha : a ∈ out) :
    ∃ x ∈ parts, ∃ given, x.result = .ok given ∧ a ∈ given := by
  obtain ⟨outs, houts, rfl⟩ := (concat_ok_iff parts out).mp h
  obtain ⟨given, hgiven, ha⟩ := List.mem_flatten.mp ha
  have hr : Except.ok given ∈ parts.map result := houts ▸ List.mem_map_of_mem hgiven
  obtain ⟨x, hx, hxr⟩ := List.mem_map.mp hr
  exact ⟨x, hx, given, hxr, ha⟩

theorem joins_concat (parts : List (Outcome (List α))) : Joins (concat parts) parts where
  ok_iff := concat_ok_iff parts
  error_iff := concat_error_iff parts
  trace_eq := trace_concat parts
  requests_eq := by
    rw [requests, trace_concat, List.filterMap_flatMap]
    rfl

end Splice.Outcome
