import Splice.Proofs.Outcome.Results
import Splice.Proofs.Value.Objects
import Splice.Yaml.Value

namespace Splice.Yaml

open Results

variable {α β γ α' β' γ' : Type}

theorem map_both {f : α → β → γ} {g : α' → β' → γ'} {r : γ → γ'} {a : α → α'} {b : β → β'}
    (h : ∀ x y, r (f x y) = g (a x) (b y)) (x : Except Found α) (y : Except Found β) :
    (both f x y).map r = both g (x.map a) (y.map b) := by
  cases x with
  | error d => cases y <;> rfl
  | ok x =>
      cases y with
      | error d => rfl
      | ok y => exact congrArg Except.ok (h x y)

theorem map_both_congr {f : α → β → γ} {g : α' → β' → γ'} {r : γ → γ'} {a : α → α'} {b : β → β'}
    (h : ∀ x y, r (f x y) = g (a x) (b y)) {x x' : Except Found α} {y y' : Except Found β}
    (hx : x.map a = x'.map a) (hy : y.map b = y'.map b) :
    (both f x y).map r = (both f x' y').map r := by
  rw [map_both h, map_both h, hx, hy]

variable (file file' : String)

mutual
theorem value_objectAt (depth : Nat) : ∀ n : Node,
    (objectAt file depth n).map Object.value = (objectAt file' depth n).map Object.value
  | .alias _ => rfl
  | .scalar _ _ _ => rfl
  | .list p items => by
      have hitems (r : Except Found (List Object)) : (r.map Object.list).map Object.value =
          (r.map Object.valuesOf).map Value.list := by cases r <;> rfl
      rw [objectAt, objectAt]
      split
      · rw [hitems, hitems, valuesOf_itemsAt]
      · rfl
      · rfl
  | .map p entries => by
      have hentries (l : Option Label) (r : Except Found (List (Key × Object))) :
          (r.map fun es => Object.map l (Entries.ofList es)).map Object.value =
            (r.map Entries.values).map fun es => .map (Entries.ofList es) := by
        cases r with
        | error d => rfl
        | ok es => exact congrArg (fun m => Except.ok (Value.map m)) (Entries.values_ofList es)
      rw [objectAt, objectAt]
      split
      · rw [hentries, hentries, values_entriesAt]
      · rfl
      · rfl

theorem valuesOf_itemsAt (depth : Nat) : ∀ ns : List Node,
    (itemsAt file depth ns).map Object.valuesOf = (itemsAt file' depth ns).map Object.valuesOf
  | [] => rfl
  | n :: ns => map_both_congr (g := List.cons) (a := Object.value) (b := Object.valuesOf)
      (fun _ _ => rfl) (value_objectAt depth n) (valuesOf_itemsAt depth ns)

theorem values_entriesAt (depth : Nat) : ∀ ns : List (Node × Node),
    (entriesAt file depth ns).map Entries.values = (entriesAt file' depth ns).map Entries.values
  | [] => rfl
  | (k, n) :: ns => by
      have hentry : (both Prod.mk (keyAt depth k) (objectAt file depth n)).map
            (fun e => (e.1, e.2.value)) =
          (both Prod.mk (keyAt depth k) (objectAt file' depth n)).map fun e => (e.1, e.2.value) :=
        map_both_congr (a := id) (fun _ _ => rfl) rfl (value_objectAt depth n)
      exact map_both_congr (g := List.cons) (a := fun e : Key × Object => (e.1, e.2.value))
        (b := Entries.values) (fun _ _ => rfl) hentry (values_entriesAt depth ns)
end

/-- The value of a document is the same in whatever file it stands. -/
theorem value_document (s : List Char) : (document file s).map Object.value = read s := by
  unfold read document
  split
  · rfl
  · split
    · rfl
    · rfl
    · split
      · rfl
      · rename_i n _
        have hmap (r : Except Found Object) :
            (r.mapError Found.flaw).map Object.value = (r.map Object.value).mapError Found.flaw := by
          cases r <;> rfl
        rw [hmap, hmap, value_objectAt file ""]

end Splice.Yaml
