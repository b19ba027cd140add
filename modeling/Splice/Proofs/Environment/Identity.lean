import Mathlib.Data.Finset.Card
import Mathlib.Data.Finset.Dedup
import Splice.Environment

namespace Splice.Environment

variable {a b e : Environment} {es set : List Environment} {i : Nat}

/-! ### Equality -/

/-- An environment is told apart by its class and its name. -/
def identity (e : Environment) : Option String × String := (e.variant, e.name)

theorem identity_inj : a.identity = b.identity ↔ a = b := by
  rw [identity, identity, Prod.mk.injEq, Environment.mk.injEq]

theorem opinion_of_same (h : a.variant = b.variant) : a.opinion b = some (decide (a.name = b.name)) :=
  if_pos h

theorem opinion_of_other (h : a.variant ≠ b.variant) : a.opinion b = none := if_neg h

theorem beq_iff : (a == b) = true ↔ a.variant = b.variant ∧ a.name = b.name := by
  show a.equal b = true ↔ _
  by_cases h : a.variant = b.variant
  · rw [equal, opinion_of_same h, Option.some_or, Option.getD_some, decide_eq_true_iff]
    exact (and_iff_right h).symm
  · rw [equal, opinion_of_other h, opinion_of_other (Ne.symm h), Option.none_or, Option.getD_none]
    exact iff_of_false Bool.false_ne_true fun hb => h hb.1

theorem beq_iff_identity : (a == b) = true ↔ a.identity = b.identity := by
  rw [beq_iff, identity, identity, Prod.mk.injEq]

instance : LawfulBEq Environment where
  rfl := beq_iff.mpr ⟨rfl, rfl⟩
  eq_of_beq h := identity_inj.mp (beq_iff_identity.mp h)

theorem hash_eq_of_beq (h : (a == b) = true) : hash a = hash b :=
  congrArg (fun name : String => hash name) (beq_iff.mp h).2

theorem equivalence_beq : Equivalence fun a b : Environment => (a == b) = true where
  refl _ := beq_self_eq_true _
  symm h := BEq.symm h
  trans h h' := BEq.trans h h'

/-! ### Sets and lists -/

theorem isIn_iff : isIn es e = true ↔ e ∈ es := by
  rw [isIn, List.any_eq_true]
  constructor
  · rintro ⟨f, hf, h⟩
    rw [Bool.and_eq_true] at h
    rwa [← eq_of_beq h.2]
  · intro he
    exact ⟨e, he, by rw [beq_self_eq_true, Bool.and_true, decide_eq_true_iff]⟩

/-- Add an environment to a set, unless one that is equal is there. -/
def add (set : List Environment) (e : Environment) : List Environment :=
  if isIn set e then set else set ++ [e]

theorem distinct_eq (es : List Environment) : distinct es = es.foldl add [] := rfl

theorem mem_add_iff : b ∈ add set e ↔ b ∈ set ∨ b = e := by
  unfold add
  split
  · rename_i hin
    refine ⟨.inl, ?_⟩
    rintro (hb | rfl)
    · exact hb
    · exact isIn_iff.mp hin
  · rw [List.mem_append, List.mem_singleton]

theorem nodup_add (h : set.Nodup) (e : Environment) : (add set e).Nodup := by
  unfold add
  split
  · exact h
  · rename_i hin
    rw [← List.concat_eq_append, List.nodup_concat]
    exact ⟨fun he => hin (isIn_iff.mpr he), h⟩

theorem mem_foldl_add_iff : b ∈ es.foldl add set ↔ b ∈ set ∨ b ∈ es := by
  induction es generalizing set with
  | nil => rw [List.foldl_nil, or_iff_left List.not_mem_nil]
  | cons e es ih => rw [List.foldl_cons, ih, mem_add_iff, List.mem_cons, or_assoc]

theorem nodup_foldl_add (h : set.Nodup) (es : List Environment) : (es.foldl add set).Nodup := by
  induction es generalizing set with
  | nil => exact h
  | cons e es ih => exact ih (nodup_add h e)

theorem mem_distinct_iff : e ∈ distinct es ↔ e ∈ es := by
  rw [distinct_eq, mem_foldl_add_iff, or_iff_right List.not_mem_nil]

theorem nodup_distinct (es : List Environment) : (distinct es).Nodup :=
  nodup_foldl_add List.nodup_nil es

/-- A set of environments has as many elements as they have classes with names. -/
theorem length_distinct (es : List Environment) :
    (distinct es).length = (es.map identity).toFinset.card := by
  have hnodup : ((distinct es).map identity).Nodup :=
    (nodup_distinct es).map fun _ _ => identity_inj.mp
  rw [← List.length_map identity, ← List.toFinset_card_of_nodup hnodup]
  congr 1
  ext x
  simp only [List.mem_toFinset, List.mem_map, mem_distinct_iff]

example : (distinct [⟨none, "Live"⟩, ⟨some "Special", "Live"⟩, ⟨none, "Live"⟩]).length = 2 :=
  (length_distinct _).trans (by decide)

theorem index_ok_iff : index es e = .ok i ↔
    ∃ f, es[i]? = some f ∧ f.identity = e.identity ∧ ∀ g ∈ es.take i, g.identity ≠ e.identity := by
  have hfind : index es e = .ok i ↔ es.findIdx? (· == e) = some i := by
    unfold index
    cases es.findIdx? (· == e) <;> simp
  rw [hfind, List.findIdx?_eq_some_iff_getElem]
  constructor
  · rintro ⟨hi, hsame, hfirst⟩
    refine ⟨es[i], List.getElem?_eq_getElem hi, beq_iff_identity.mp hsame, ?_⟩
    intro g hg heq
    obtain ⟨j, hj, rfl⟩ := List.mem_take_iff_getElem.mp hg
    exact hfirst j (by omega) (beq_iff_identity.mpr heq)
  · rintro ⟨f, hf, hsame, hfirst⟩
    obtain ⟨hi, rfl⟩ := List.getElem?_eq_some_iff.mp hf
    refine ⟨hi, beq_iff_identity.mpr hsame, fun j hj heq => ?_⟩
    exact hfirst _ (List.mem_take_iff_getElem.mpr ⟨j, by omega, rfl⟩) (beq_iff_identity.mp heq)

theorem index_error_iff : index es e = .error (.notListed e.shown) ↔
    ∀ f ∈ es, f.identity ≠ e.identity := by
  have hfind : index es e = .error (.notListed e.shown) ↔ es.findIdx? (· == e) = none := by
    unfold index
    cases es.findIdx? (· == e) <;> simp
  rw [hfind, List.findIdx?_eq_none_iff]
  refine forall₂_congr fun f _ => ?_
  rw [← Bool.not_eq_true, beq_iff_identity]

/-! ### Attempts at changes -/

/-- An attempt at changing the environment at a place of a list. -/
structure Attempt where
  place : Nat
  change : Change

/-- What attempts leave of a list, and what comes of each. -/
def attempted (es : List Environment) : List Attempt → List Environment × List (Except Fault Unit)
  | [] => (es, [])
  | a :: rest => match es[a.place]? with
    | none => attempted es rest
    | some e =>
      let later := attempted (es.set a.place (e.change a.change).1) rest
      (later.1, (e.change a.change).2 :: later.2)

def refusal? (es : List Environment) (a : Attempt) : Option (Except Fault Unit) :=
  es[a.place]?.map fun e => .error (.immutable e.title)

theorem set_change (h : es[i]? = some e) (c : Change) : es.set i (e.change c).1 = es := by
  obtain ⟨hi, rfl⟩ := List.getElem?_eq_some_iff.mp h
  exact List.set_getElem_self hi

theorem attempted_eq (es : List Environment) (attempts : List Attempt) :
    attempted es attempts = (es, attempts.filterMap (refusal? es)) := by
  induction attempts with
  | nil => rfl
  | cons a rest ih =>
      rw [attempted, List.filterMap_cons, refusal?]
      cases hplace : es[a.place]? with
      | none => exact ih
      | some e =>
          rw [Option.map_some]
          dsimp only
          rw [set_change hplace, ih]
          rfl

/-- Environments are told apart by class and name, in sets and in lists, and no attempt at changing them
changes that. -/
theorem identity_kept (es : List Environment) (attempts : List Attempt) :
    (attempted es attempts).1 = es ∧
      (attempted es attempts).2 = attempts.filterMap (refusal? es) ∧
      (Equivalence fun a b : Environment => (a == b) = true) ∧
      (∀ a b : Environment, (a == b) = true ↔ a.variant = b.variant ∧ a.name = b.name) ∧
      (∀ a b : Environment, (a == b) = true → hash a = hash b) ∧
      (distinct (attempted es attempts).1).length = (es.map identity).toFinset.card ∧
      (∀ e i, index (attempted es attempts).1 e = .ok i ↔ ∃ f, es[i]? = some f ∧
        f.identity = e.identity ∧ ∀ g ∈ es.take i, g.identity ≠ e.identity) ∧
      ∀ e, index (attempted es attempts).1 e = .error (.notListed e.shown) ↔
        ∀ f ∈ es, f.identity ≠ e.identity := by
  rw [attempted_eq]
  exact ⟨rfl, rfl, equivalence_beq, fun _ _ => beq_iff, fun _ _ => hash_eq_of_beq, length_distinct es,
    fun _ _ => index_ok_iff, fun _ => index_error_iff⟩

end Splice.Environment
