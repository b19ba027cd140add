import Splice.Config.Override
import Splice.Proofs.Outcome.Results
import Splice.Proofs.Outcome.Sequence
import Splice.Proofs.Schema.Closed
import Splice.Proofs.Value.Layers

namespace Splice.Override

open Outcome Results

variable {α : Type} {m : Entries α} {segment name text : String} {names : List String}

/-! ### The key for a segment -/

/-- The text of a key that differs from the segment in case only. -/
def alike? (segment : String) : Key → Option String
  | .text k => if Text.lowered k = segment then some k else none
  | _ => none

/-- The segment may come to stand under the key. -/
def Answers (segment key : String) : Prop := key = segment ∨ Text.lowered key = segment

theorem alike?_eq_some_iff {key : Key} {k : String} :
    alike? segment key = some k ↔ key = .text k ∧ Text.lowered k = segment := by
  cases key with
  | text s =>
      rw [alike?]
      by_cases h : Text.lowered s = segment
      · rw [if_pos h, Option.some_inj, Key.text.injEq]
        exact ⟨fun hk => ⟨hk, hk ▸ h⟩, And.left⟩
      · rw [if_neg h]
        constructor
        · rintro ⟨⟩
        · rintro ⟨hk, halike⟩
          cases hk
          exact absurd halike h
  | _ => simp [alike?]

theorem resolve_eq (m : Entries α) (segment : String) :
    resolve m segment = ((m.map (·.1)).reverse.findSome? (alike? segment)).getD segment := by
  rw [← List.map_reverse, List.findSome?_map]
  rfl

theorem resolve_eq_or_mem (m : Entries α) (segment : String) :
    resolve m segment = segment ∨ (Text.lowered (resolve m segment) = segment ∧
      (m.get? (.text (resolve m segment))).isSome = true) := by
  rw [resolve_eq, Entries.isSome_get?_text_iff]
  cases h : (m.map (·.1)).reverse.findSome? (alike? segment) with
  | none => exact .inl rfl
  | some k =>
      obtain ⟨key, hmem, hkey⟩ := List.exists_of_findSome?_eq_some h
      obtain ⟨rfl, hlower⟩ := alike?_eq_some_iff.mp hkey
      exact .inr ⟨hlower, List.mem_reverse.mp hmem⟩

theorem answers_resolve (m : Entries α) (segment : String) : Answers segment (resolve m segment) :=
  (resolve_eq_or_mem m segment).imp_right And.left

theorem resolve_mem_later {before after : List Key} (hkeys : m.map (·.1) = before ++ after)
    {k : String} (hk : .text k ∈ after) (hlower : Text.lowered k = segment) :
    .text (resolve m segment) ∈ after := by
  have hfound : (after.reverse.findSome? (alike? segment)).isSome = true :=
    List.findSome?_isSome_iff.mpr ⟨.text k, List.mem_reverse.mpr hk,
      Option.isSome_iff_exists.mpr ⟨k, alike?_eq_some_iff.mpr ⟨rfl, hlower⟩⟩⟩
  obtain ⟨l, hl⟩ := Option.isSome_iff_exists.mp hfound
  obtain ⟨key, hmem, hkey⟩ := List.exists_of_findSome?_eq_some hl
  obtain ⟨rfl, -⟩ := alike?_eq_some_iff.mp hkey
  rw [resolve_eq, hkeys, List.reverse_append, List.findSome?_append, hl]
  exact List.mem_reverse.mp hmem

/-! ### Settings -/

theorem mem_settings_iff {bindings : List (String × String)} {v : String × String} :
    v ∈ settings bindings ↔ v ∈ bindings ∧ (settingName? v.1).isSome = true := by
  rw [settings, List.mem_mergeSort, List.mem_filter]

variable {o o' : Objects}

theorem result_apply_ok_iff {key : String} (hname : settingName? key = some name) :
    (apply o (key, text)).result = .ok o' ↔ name.isEmpty = false ∧
      ∃ p v, path name = .ok p ∧ Coerce.value text = .ok v ∧ put o p (.ofValue v) = .ok o' := by
  rw [apply]
  simp only [hname, Option.getD_some]
  cases hempty : name.isEmpty with
  | true =>
      rw [if_pos rfl]
      refine ⟨fun h => ?_, by rintro ⟨⟨⟩, _⟩⟩
      obtain ⟨_, hfail, -⟩ := result_bind_ok_iff.mp h
      cases hfail
  | false =>
      rw [if_neg Bool.false_ne_true]
      constructor
      · intro h
        obtain ⟨p, hp, h⟩ := result_bind_ok_iff.mp h
        obtain ⟨v, hv, h⟩ := result_bind_ok_iff.mp h
        exact ⟨rfl, p, v, hp, hv, h⟩
      · rintro ⟨-, p, v, hp, hv, h⟩
        exact result_bind_ok_iff.mpr ⟨p, hp, result_bind_ok_iff.mpr ⟨v, hv, h⟩⟩

theorem applyAll_single {bindings : List (String × String)} {setting : String × String}
    (h : bindings.filter (fun v => (settingName? v.1).isSome) = [setting]) :
    ((applyAll o bindings).2.result = .ok () ∧ o' = (applyAll o bindings).1) ↔
      (apply o setting).result = .ok o' := by
  rw [applyAll, settings, h, List.mergeSort_singleton, applyEach]
  cases (apply o setting).result with
  | error e => simp
  | ok n => simp [applyEach, eq_comm]

theorem path_eq {p : List String} (hpath : path name = .ok p)
    (hmatch : (segments name.toList).map Text.lower = names.map fun s => Text.lower s.toList) :
    p = names.map Text.lowered := by
  rw [path] at hpath
  split at hpath
  · cases hpath
  · rw [← Except.ok.inj hpath]
    calc (segments name.toList).map (fun s => String.ofList (Text.lower s))
        = ((segments name.toList).map Text.lower).map String.ofList := by rw [List.map_map]; rfl
      _ = names.map Text.lowered := by rw [hmatch, List.map_map]; rfl

end Splice.Override
